import ByteCursor.Options.Document
import ByteCursor.Proofs.Outcome
import ByteCursor.Session
import ByteCursor.Subscriber
import ByteCursor.Proofs.Scan.Byte
import ByteCursor.Proofs.Scan.Pattern
import ByteCursor.Proofs.Scan.Slice
import ByteCursor.Proofs.Scan.Atomic
import ByteCursor.Proofs.Decimal.Magnitude
import ByteCursor.Proofs.Decimal.Numeral
import ByteCursor.Proofs.Decimal.Read
import ByteCursor.Proofs.Hexadecimal.Digits
import ByteCursor.Proofs.Hexadecimal.Numeral
import ByteCursor.Proofs.Hexadecimal.Read
import ByteCursor.Proofs.Call.Token
import ByteCursor.Proofs.Call.Ends
import ByteCursor.Proofs.Raw
import ByteCursor.Proofs.Call.Contract
import ByteCursor.Proofs.Call.Locality
import ByteCursor.Proofs.Session.Reachable
import ByteCursor.Proofs.Session.Transaction
import ByteCursor.Proofs.Decimal.Canonical
import ByteCursor.Proofs.Decimal.Language
import ByteCursor.Proofs.Hexadecimal.Language
import ByteCursor.Proofs.Session.Conservation
import ByteCursor.Proofs.Session.Locality
import ByteCursor.Proofs.Session.Invariant
import ByteCursor.Proofs.Session.Script
import ByteCursor.Proofs.Session.Records
import ByteCursor.Proofs.Call.Trace
import ByteCursor.Proofs.ByteOrder
import ByteCursor.Proofs.Hexadecimal.Derived
import ByteCursor.Proofs.Session.Options
import ByteCursor.Proofs.Session.Status
import ByteCursor.Proofs.Decimal.Narrow
import ByteCursor.Proofs.Decimal.Clamping
import ByteCursor.Proofs.Decimal.Conversion
import ByteCursor.Proofs.Call.Occurrence
import ByteCursor.Proofs.Utf8
import ByteCursor.Proofs.Session.Fields
import ByteCursor.Proofs.Session.Pieces
import ByteCursor.Proofs.Call.Copy
import ByteCursor.Proofs.Session.Bulk
import ByteCursor.Proofs.Session.DecimalList
import ByteCursor.Proofs.Hexadecimal.Written
import ByteCursor.Proofs.Session.HexadecimalWords
import ByteCursor.Proofs.BinaryFormat
import ByteCursor.Proofs.Session.SpelledOctets
import ByteCursor.Proofs.Session.BinaryStream
import ByteCursor.Proofs.Toml.Table
import ByteCursor.Proofs.Toml.Parser
import ByteCursor.Proofs.Toml.Grammar
import ByteCursor.Proofs.Toml.Text
import ByteCursor.Proofs.Toml.Number
import ByteCursor.Proofs.Toml.Datetime
import ByteCursor.Proofs.Toml.Key
import ByteCursor.Proofs.Toml.Value
import ByteCursor.Proofs.Toml.Document
import ByteCursor.Proofs.Options.Document
import ByteCursor.Proofs.Options.Edition
