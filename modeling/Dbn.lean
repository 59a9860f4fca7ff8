import Dbn.Cli.Main
import Dbn.Decode.BulkProgress
import Dbn.Decode.CancelSafety
import Dbn.Decode.DecoderVersion
import Dbn.Decode.DynReader
import Dbn.Decode.InputVersion
import Dbn.Decode.LastRecord
import Dbn.Decode.MergeErrors
import Dbn.Decode.MergeNested
import Dbn.Decode.MetadataSchedules
import Dbn.Decode.MetadataCapacity
import Dbn.Decode.PolicyCompatibility
import Dbn.Decode.RecordReaders
import Dbn.Decode.RecordSafety
import Dbn.Decode.RecordViews
import Dbn.Decode.Reset
import Dbn.Decode.Serviceable
import Dbn.Decode.SkipBytes
import Dbn.Decode.Termination
import Dbn.Decode.UpdatedStream
import Dbn.Decode.UpgradePaths
import Dbn.Decode.VersionDetection
import Dbn.Encode.AsyncMetadataEncoder
import Dbn.Encode.CsvLimit
import Dbn.Encode.DynEncoder
import Dbn.Encode.JsonRecord
import Dbn.Encode.MetadataLength
import Dbn.ErrorMsg
import Dbn.Macros.RecordFields
import Dbn.Metadata.DateCodec
import Dbn.Metadata.LiveSymbols
import Dbn.Metadata.MergeCommutes
import Dbn.Metadata.MergeRange
import Dbn.Metadata.SymbolMapInsert
import Dbn.Pretty
import Dbn.Python.DbnDecoderRuns
import Dbn.Python.TranscodeCsv
import Dbn.Python.TranscodeDbn
import Dbn.Python.TranscodeJson
import Dbn.UpgradeMeaning
