import SearchFilter.Main
import SearchFilter.Query
import SearchFilter.Proofs.Conversion.Image
import SearchFilter.Proofs.Conversion.Log
import SearchFilter.Proofs.Conversion.Occurrence
import SearchFilter.Proofs.Filter.Document
import SearchFilter.Proofs.Filter.Text
import SearchFilter.Proofs.Query.Damaged
import SearchFilter.Proofs.Query.Normalized
import SearchFilter.Proofs.Query.Positional
import SearchFilter.Proofs.Query.Rearranged
import SearchFilter.Proofs.Log.Fields
import SearchFilter.Proofs.Log.Line
import SearchFilter.Log
import SearchFilter.Session
import SearchFilter.Proofs.Log.Observation
import SearchFilter.Proofs.Command.Loading
import SearchFilter.Proofs.Command.Agreement
import SearchFilter.Proofs.Conversion.Interval
import SearchFilter.Proofs.Conversion.Phrase
import SearchFilter.Proofs.Encoding.Regex
import SearchFilter.Proofs.Encoding.Wildcard
import SearchFilter.Proofs.Encoding.Fuzzy
import SearchFilter.Proofs.Conversion.Settings
import SearchFilter.Proofs.Json.Skipping
import SearchFilter.Proofs.Config.Reading
import SearchFilter.Proofs.Conversion.Building
import SearchFilter.Proofs.Conversion.Required
import SearchFilter.Proofs.Conversion.Size
import SearchFilter.Proofs.Query.Depth
import SearchFilter.Proofs.Command.Options
import SearchFilter.Proofs.Command.JsonLine
import SearchFilter.Proofs.Command.TextLine
