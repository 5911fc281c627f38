import CacheInvalidation.Proto
import CacheInvalidation.OperationScheduler
import CacheInvalidation.OperationScheduler.Runs
import CacheInvalidation.RegistrationManager
import CacheInvalidation.RegistrationManager.Runs
import CacheInvalidation.ProtocolHandler
import CacheInvalidation.ProtocolHandler.Incoming
import CacheInvalidation.ProtocolHandler.Outgoing
import CacheInvalidation.ProtocolHandler.Runs
import CacheInvalidation.ProtocolHandler.Steps
import CacheInvalidation.ProtocolHandler.Batches
import CacheInvalidation.ProtocolHandler.Times
import CacheInvalidation.ProtocolHandler.Transport
import CacheInvalidation.ProtocolHandler.Wakeup
import CacheInvalidation.SafeStorage
