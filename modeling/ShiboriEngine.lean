import ShiboriEngine.Library.Words
import ShiboriEngine.Library.Spans
import ShiboriEngine.Library.ReflectedCrc
import ShiboriEngine.Error
import ShiboriEngine.Resource
import ShiboriEngine.Integrity
import ShiboriEngine.Library.Fill
import ShiboriEngine.Digest
import ShiboriEngine.DigestProofs
import ShiboriEngine.Endian
import ShiboriEngine.Preamble
import ShiboriEngine.Record
import ShiboriEngine.RecordCodecProofs
import ShiboriEngine.CorruptionProofs
import ShiboriEngine.PreambleProofs
import ShiboriEngine.Library.Machine
import ShiboriEngine.SequenceProofs
import ShiboriEngine.Crc32cX86
import ShiboriEngine.Crc32cProofs
import ShiboriEngine.StreamProofs
import ShiboriEngine.Library.Slots
import ShiboriEngine.Library.Forest
import ShiboriEngine.Budget
import ShiboriEngine.BudgetProofs
import ShiboriEngine.BudgetTreeProofs
import ShiboriEngine.Library.Transfer
import ShiboriEngine.ByteIo
import ShiboriEngine.ExactTransferProofs
import ShiboriEngine.MemoryIo
import ShiboriEngine.FileIo
import ShiboriEngine.Library.WriteBehind
import ShiboriEngine.BufferedIo
import ShiboriEngine.FileBoundProofs
import ShiboriEngine.FaultyReadProofs
import ShiboriEngine.BufferedIoProofs
import ShiboriEngine.FaultyWriteProofs
import ShiboriEngine.StoredBytesProofs
import ShiboriEngine.AdapterRefinementProofs
import ShiboriEngine.MemorySpliceProofs
import ShiboriEngine.Library.Utf8
import ShiboriEngine.Utf8
import ShiboriEngine.Library.PrefixCode
import ShiboriEngine.FramingProofs
import ShiboriEngine.Library.InOrder
import ShiboriEngine.ChannelProofs
import ShiboriEngine.Buffer
import ShiboriEngine.LogicalType
import ShiboriEngine.Schema
import ShiboriEngine.Library.OrderedMap
import ShiboriEngine.SchemaProofs
import ShiboriEngine.SchemaAcceptanceProofs
import ShiboriEngine.CanonicalProofs
import ShiboriEngine.Library.MultiplyXor
import ShiboriEngine.FingerprintProofs
import ShiboriEngine.Column
import ShiboriEngine.Library.Bitmap
import ShiboriEngine.ColumnProofs
import ShiboriEngine.ValidityProofs
import ShiboriEngine.Block
import ShiboriEngine.ColumnValidationProofs
import ShiboriEngine.BlockProofs
import ShiboriEngine.BlockAcceptanceProofs
import ShiboriEngine.BlockLimitProofs
import ShiboriEngine.BlockAccessProofs
import ShiboriEngine.LifecycleProofs
import ShiboriEngine.ColumnShapeProofs
import ShiboriEngine.ColumnBuilderProofs
import ShiboriEngine.Library.Dense
import ShiboriEngine.Cancellation
import ShiboriEngine.CancellationProofs
import ShiboriEngine.CancelledTransferProofs
import ShiboriEngine.Table
import ShiboriEngine.TableStorageProofs
import ShiboriEngine.TableProofs
import ShiboriEngine.TableBlockProofs
import ShiboriEngine.TableRefinementProofs
import ShiboriEngine.Library.Delimiter
import ShiboriEngine.Diagnostics
import ShiboriEngine.DiagnosticsProofs
import ShiboriEngine.MetadataProofs
