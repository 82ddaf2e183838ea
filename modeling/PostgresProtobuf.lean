import PostgresProtobuf.Foundation.Action
import PostgresProtobuf.Foundation.Reader
import PostgresProtobuf.Foundation.WireFormat
import PostgresProtobuf.CodedInputStream
import PostgresProtobuf.FieldInfo
import PostgresProtobuf.ProtobufTraverser
import PostgresProtobuf.Descriptor
import PostgresProtobuf.Visitors
import PostgresProtobuf.QueryImpl
import PostgresProtobuf.Foundation.IntegerText
import PostgresProtobuf.CompileQuery
import PostgresProtobuf.Foundation.Realization
import PostgresProtobuf.Semantics
import PostgresProtobuf.TraverserStack
import PostgresProtobuf.ChainCallbacks
import PostgresProtobuf.StreamReading
import PostgresProtobuf.ScanRules
import PostgresProtobuf.Delivering
import PostgresProtobuf.EndAdequacy
import PostgresProtobuf.SelectorAdequacy
import PostgresProtobuf.DescendAdequacy
import PostgresProtobuf.EntriesAdequacy
import PostgresProtobuf.LookupAdequacy
import PostgresProtobuf.Adequacy
import PostgresProtobuf.Runs
import PostgresProtobuf.CompiledChain
import PostgresProtobuf.FieldPaths
import PostgresProtobuf.Congruence
import PostgresProtobuf.EntryBuffers
import PostgresProtobuf.Answers
import PostgresProtobuf.TestSchema
import PostgresProtobuf.Composition
import PostgresProtobuf.PathSemantics
import PostgresProtobuf.Emissions
import PostgresProtobuf.PathEvaluation
import PostgresProtobuf.RepeatedScalars
import PostgresProtobuf.BytesRows
import PostgresProtobuf.DescriptorAssertions
import PostgresProtobuf.PathTexts
import PostgresProtobuf.QueryPrefixes
import PostgresProtobuf.SqlFunctions
import PostgresProtobuf.RowLimits
import PostgresProtobuf.DescriptorCache
import PostgresProtobuf.PathGrammar
import PostgresProtobuf.MapKeys
import PostgresProtobuf.PathPrinting
import PostgresProtobuf.NumericKeys
import PostgresProtobuf.IntegerRows
import PostgresProtobuf.Flows
import PostgresProtobuf.Requirements
import PostgresProtobuf.ReusedQueries
import PostgresProtobuf.Concatenation
import PostgresProtobuf.RecursionDepth
import PostgresProtobuf.Framing
import PostgresProtobuf.UnwrittenMemory
import PostgresProtobuf.ComposedMemory
import PostgresProtobuf.ForeignFields
import PostgresProtobuf.NumericLiterals
import PostgresProtobuf.EnumRows
import PostgresProtobuf.Foundation.Outcome
import PostgresProtobuf.ScanStreams
import PostgresProtobuf.ScanContracts
import PostgresProtobuf.WatchedStreams
import PostgresProtobuf.StackDiscipline
import PostgresProtobuf.Termination
import PostgresProtobuf.MapLookups
import PostgresProtobuf.WireTypes
import PostgresProtobuf.Foundation.Supply
import PostgresProtobuf.RowSources
import PostgresProtobuf.Foundation.Component
import PostgresProtobuf.QueryMulti
import PostgresProtobuf.TransactionSnapshots
import PostgresProtobuf.SnapshotServer
import PostgresProtobuf.DescriptorTable
import PostgresProtobuf.ErrorReports
import PostgresProtobuf.DeeperRuns
import PostgresProtobuf.Foundation.Slices
import PostgresProtobuf.ListIndices
import PostgresProtobuf.MapEnumerations
import PostgresProtobuf.Foundation.Truncation
import PostgresProtobuf.CutMessages
import PostgresProtobuf.SelectedMessages
import PostgresProtobuf.Footprints
import PostgresProtobuf.Foundation.Credits
import PostgresProtobuf.ScanCosts
import PostgresProtobuf.GrownSchemas
