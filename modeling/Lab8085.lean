import Lab8085.Access
import Lab8085.Arithmetic
import Lab8085.Assembly
import Lab8085.Bus
import Lab8085.Bus.Bench
import Lab8085.Calendar
import Lab8085.Config.Building
import Lab8085.Config.Files
import Lab8085.Config.Outline
import Lab8085.Config.Reading
import Lab8085.Config.System
import Lab8085.Debugger
import Lab8085.Dictionary
import Lab8085.Disassembly
import Lab8085.Failure
import Lab8085.Given
import Lab8085.Instruction.Action
import Lab8085.Instruction.Catalog
import Lab8085.Instruction.Descriptor
import Lab8085.Instruction.Operand
import Lab8085.Instruction.Table
import Lab8085.Machine
import Lab8085.Machine.Step
import Lab8085.Machine.Trial
import Lab8085.Memory
import Lab8085.Micro
import Lab8085.Monitor.Command
import Lab8085.Monitor.Session
import Lab8085.Number.Decimal
import Lab8085.Number.Integer
import Lab8085.Number.Limit
import Lab8085.Number.Shortest
import Lab8085.Operation
import Lab8085.Proofs.Assembler.Canonical
import Lab8085.Proofs.Assembler.Compile
import Lab8085.Proofs.Assembler.Diagnosis
import Lab8085.Proofs.Assembler.Joining
import Lab8085.Proofs.Assembler.Line
import Lab8085.Proofs.Assembler.Listing
import Lab8085.Proofs.Assembler.Literal
import Lab8085.Proofs.Assembler.Numeral
import Lab8085.Proofs.Assembler.Printing
import Lab8085.Proofs.Assembler.Program
import Lab8085.Proofs.Assembler.ReadBack
import Lab8085.Proofs.Assembler.Reassembly
import Lab8085.Proofs.Assembler.Relocation
import Lab8085.Proofs.Assembler.RoundTrip
import Lab8085.Proofs.Assembler.Text
import Lab8085.Proofs.Bus.Store
import Lab8085.Proofs.Bus.Tiling
import Lab8085.Proofs.Config.Building
import Lab8085.Proofs.Config.InitialState
import Lab8085.Proofs.Config.Outline
import Lab8085.Proofs.Config.Reading
import Lab8085.Proofs.Config.Spelling
import Lab8085.Proofs.Debugger.Agreement
import Lab8085.Proofs.Debugger.Slicing
import Lab8085.Proofs.Debugger.Stopping
import Lab8085.Proofs.Debugger.Visit
import Lab8085.Proofs.Disassembly
import Lab8085.Proofs.Instruction.Catalog
import Lab8085.Proofs.Machine.Arithmetic
import Lab8085.Proofs.Machine.Attended
import Lab8085.Proofs.Machine.Decimal
import Lab8085.Proofs.Machine.Decoding
import Lab8085.Proofs.Machine.Dependence
import Lab8085.Proofs.Machine.Fault
import Lab8085.Proofs.Machine.Fields
import Lab8085.Proofs.Machine.Leads
import Lab8085.Proofs.Machine.Loading
import Lab8085.Proofs.Machine.Mirror
import Lab8085.Proofs.Machine.Placing
import Lab8085.Proofs.Machine.Quiet
import Lab8085.Proofs.Machine.Residue
import Lab8085.Proofs.Machine.Script
import Lab8085.Proofs.Machine.Stack
import Lab8085.Proofs.Machine.Trace
import Lab8085.Proofs.Machine.Transfer
import Lab8085.Proofs.Machine.WellFormed
import Lab8085.Proofs.Monitor.WellFormed
import Lab8085.Proofs.Sorting.Loops
import Lab8085.Proofs.Sorting.Passes
import Lab8085.Proofs.Sorting.Run
import Lab8085.Proofs.Sorting.Source
import Lab8085.Proofs.Watch.History
import Lab8085.Register
import Lab8085.RegisterMap
import Lab8085.Report
import Lab8085.SlotTable
import Lab8085.Source.Error
import Lab8085.Source.Line
import Lab8085.Source.Literal
import Lab8085.State
import Lab8085.Symbols
import Lab8085.Text.Base64
import Lab8085.Text.Blank
import Lab8085.Text.CaseTable
import Lab8085.Text.DigitTable
import Lab8085.Text.Hex
import Lab8085.Text.Lines
import Lab8085.Text.LowerCase
import Lab8085.Text.PrintableTable
import Lab8085.Text.Quoted
import Lab8085.Text.Surrogate
import Lab8085.Text.UpperCase
import Lab8085.Value
import Lab8085.Watch
import Lab8085.Word
import Lab8085.Yaml.Construction
import Lab8085.Yaml.Content
import Lab8085.Yaml.Cursor
import Lab8085.Yaml.Document
import Lab8085.Yaml.Fault
import Lab8085.Yaml.Layout
import Lab8085.Yaml.Node
import Lab8085.Yaml.Scalar
import Lab8085.Yaml.Tag
import Lab8085.Yaml.Timestamp
import Lab8085.Yaml.Token
