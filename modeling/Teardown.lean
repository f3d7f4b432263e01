import Teardown.Logging.Install
import Teardown.Login.Stored
import Teardown.Proofs.Collector.Capacity
import Teardown.Proofs.Collector.Counting
import Teardown.Proofs.Collector.Interleaving
import Teardown.Proofs.Collector.Leakage
import Teardown.Proofs.Collector.Readding
import Teardown.Proofs.Collector.Reentering
import Teardown.Proofs.Collector.Scoping
import Teardown.Proofs.Collector.Supplying
import Teardown.Proofs.Failure.Normalizing
import Teardown.Proofs.Failure.Reporting
import Teardown.Proofs.Failure.Storing
import Teardown.Proofs.Failure.Truncation
import Teardown.Proofs.Release.Order
import Teardown.Proofs.Release.Repeating
import Teardown.Proofs.Release.Unwinding
import Teardown.Proofs.Script.Causes
import Teardown.Proofs.Script.Keeping
import Teardown.Proofs.Settings.Files
import Teardown.Proofs.Settings.Variables
import Teardown.Script.Run
