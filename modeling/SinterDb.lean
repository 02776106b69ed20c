import SinterDb.Wal.Damage
import SinterDb.Wal.LogInvariant
import SinterDb.Protocol.Canonical
import SinterDb.Protocol.MessageStream
import SinterDb.Protocol.Received
import SinterDb.Lib.JsMap
import SinterDb.Lib.Json
import SinterDb.Storage.ScanEquivalence
import SinterDb.Storage.Readable
import SinterDb.Storage.CleanRun
import SinterDb.Storage.UniqueWrites
import SinterDb.Storage.CleanContracts
import SinterDb.Storage.InsertSequence
import SinterDb.Storage.UpdateCommutes
import SinterDb.Lib.Result
import SinterDb.Engine.CheckpointRoundTrip
import SinterDb.Engine.Upgrade
import SinterDb.Engine.LockExclusion
import SinterDb.Inspect.RepairLoss
import SinterDb.Backup.Source
import SinterDb.Server.BatchSize
import SinterDb.Server.CursorRun
import SinterDb.Driver.CursorClose
import SinterDb.Driver.CursorReads
import SinterDb.Driver.RequestCorrelation
import SinterDb.Storage.SortOrder
import SinterDb.Storage.UpdateAgain
import SinterDb.Storage.UpsertId
import SinterDb.Storage.IndexValidation
import SinterDb.Storage.ValidationAnswers
import SinterDb.Storage.UpsertMatches
import SinterDb.Server.Catalog
import SinterDb.Server.CommandDispatcher
import SinterDb.Server.MissingCollection
import SinterDb.Lib.OrderedTable
import SinterDb.Lib.Journal
import SinterDb.Engine.SnapshotImage
import SinterDb.Engine.EngineRun
import SinterDb.Wal.Barrier
import SinterDb.Server.Durability
import SinterDb.Server.ReplyOrder
import SinterDb.Server.SessionErrors
import SinterDb.Server.MissingAnswers
import SinterDb.Server.SessionResults
import SinterDb.Server.Namespaces
