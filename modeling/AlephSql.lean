import AlephSql.Transition
import AlephSql.Interleave
import AlephSql.SqlThread
import AlephSql.Dispatch
import AlephSql.PoolInvariant
import AlephSql.Stall
import AlephSql.RunningCount
import AlephSql.Shutdown
import AlephSql.Drain
import AlephSql.QueueOrder
import AlephSql.ErrorCode
import AlephSql.Database
import AlephSql.Delivery
import AlephSql.CallSteps
import AlephSql.Failure
import AlephSql.StatementMixing
import AlephSql.Custody
import AlephSql.Handles
import AlephSql.Release
import AlephSql.AsyncPool
import AlephSql.Completion
import AlephSql.SequentialConsistency
import AlephSql.Initialisation
import AlephSql.ConnectionTracking
import AlephSql.ResultRows
import AlephSql.FailedCalls
import AlephSql.Parameters
import AlephSql.PasswordFlow
import AlephSql.RetryLoop
import AlephSql.MysqlHandles
import AlephSql.AffectedRows
import AlephSql.Passing
import AlephSql.Submission
import AlephSql.LateBinding
import AlephSql.WholeText
import AlephSql.ShutdownEnd
import AlephSql.ObjectLifetime
import AlephSql.MysqlSession
import AlephSql.StatementScope
import AlephSql.Backoff
import AlephSql.DataRace
import AlephSql.Logger
import AlephSql.OneByOne
import AlephSql.TwoPhases
import AlephSql.CallbackArguments
import AlephSql.ErrorMessage
import AlephSql.ManagerRace
import AlephSql.NullPointers
import AlephSql.ApiRefinement
import AlephSql.LatePosts
import AlephSql.MysqlExecute
import AlephSql.CallbackChain
