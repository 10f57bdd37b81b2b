import Adventure.Database.Edit
import Adventure.Main
import Adventure.Proofs.Bytewise
import Adventure.Proofs.Chain
import Adventure.Proofs.CommandLine
import Adventure.Proofs.Decode
import Adventure.Proofs.Delimited
import Adventure.Proofs.Dump
import Adventure.Proofs.Exits
import Adventure.Proofs.Export
import Adventure.Proofs.Extension
import Adventure.Proofs.Header
import Adventure.Proofs.Listing
import Adventure.Proofs.Locality
import Adventure.Proofs.Log
import Adventure.Proofs.Lookup
import Adventure.Proofs.Marker
import Adventure.Proofs.Numeral
import Adventure.Proofs.Offset
import Adventure.Proofs.Options
import Adventure.Proofs.OrderedMap
import Adventure.Proofs.Reach
import Adventure.Proofs.Resolution
import Adventure.Proofs.RoundTrip
import Adventure.Proofs.Rules.Codec
import Adventure.Proofs.Rules.Format
import Adventure.Proofs.Rules.Kinds
import Adventure.Proofs.Rules.Line
import Adventure.Proofs.Rules.Opcodes
import Adventure.Proofs.Rules.Table
import Adventure.Proofs.Stages
import Adventure.Proofs.Tables
import Adventure.Proofs.Text.Format
import Adventure.Proofs.Text.Grammar
import Adventure.Proofs.Text.Markup
import Adventure.Proofs.Text.Wrapping
import Adventure.Proofs.Toml.Document
import Adventure.Proofs.Toml.Strings
import Adventure.Proofs.Upper
import Adventure.Proofs.Vocabulary
import Adventure.Proofs.WellFormed
