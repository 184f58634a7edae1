import OciWrapper.Execute.CachedSelects
import OciWrapper.Execute.RequestSequence
import OciWrapper.Execute.UpdateAuditTrail
import OciWrapper.Core.SessionGate
import OciWrapper.Infra.AuthManager
import OciWrapper.Core.TransactionScope
import OciWrapper.Execute.WorkerAudits
import OciWrapper.Execute.StaleReads
import OciWrapper.Execute.UncommittedReads
import OciWrapper.Core.ListedTables
import OciWrapper.Execute.HandleStatuses
import OciWrapper.Infra.Lending
import OciWrapper.Session.EndedSessions
import OciWrapper.Dml.StatementBinds
import OciWrapper.Wire.ReachedTexts
import OciWrapper.Dates.NormalizedDates
import OciWrapper.Infra.CacheCounts
import OciWrapper.Infra.GenericQueue
import OciWrapper.Infra.CacheLimits
import OciWrapper.Infra.CachePromises
import OciWrapper.Execute.TableInvalidation
import OciWrapper.Dates.RenderedDates
import OciWrapper.Infra.QueueManager
import OciWrapper.Infra.LoginAttempts
import OciWrapper.Infra.AuthzManager
import OciWrapper.Ddl.CachedSchemas
import OciWrapper.Worker.PooledSessions
import OciWrapper.Worker.PoolCounts
import OciWrapper.Infra.SettledFiles
import OciWrapper.Execute.FetchedFields
import OciWrapper.Wire.TextSniffs
import OciWrapper.Markup.Encoding
import OciWrapper.Audit.RowHash
import OciWrapper.Infra.SessionCodec
import OciWrapper.Dml.KeyConditions
import OciWrapper.Dml.PlacedRows
import OciWrapper.Dml.CheckedCopies
import OciWrapper.Audit.ImageSelect
import OciWrapper.Audit.SnapshotRows
import OciWrapper.Audit.OldValues
import OciWrapper.Execute.AsyncBatches
import OciWrapper.Mssql.LobChunks
import OciWrapper.Mssql.ProcedureCall
import OciWrapper.Mssql.WideText
import OciWrapper.Dml.NumericValues
import OciWrapper.Dml.IntervalFormats
import OciWrapper.Mssql.SqlClauses
import OciWrapper.Infra.MetadataPayload
import OciWrapper.Execute.CommitRetries
import OciWrapper.Mssql.KeyResults
import OciWrapper.Mssql.LongValues
import OciWrapper.Execute.RowWrappers
import OciWrapper.Infra.Metrics
import OciWrapper.Execute.CountedSelect
import OciWrapper.Execute.RenderedFields
import OciWrapper.Execute.QueryDocument
import OciWrapper.Infra.MetricsWriter
import OciWrapper.Mssql.ConnectionString
import OciWrapper.Infra.PooledRequests
import OciWrapper.Infra.LogRotation
import OciWrapper.Infra.IniReader
