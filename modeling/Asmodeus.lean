import Asmodeus.ControlPlane.AuditStore.CrashTail
import Asmodeus.ControlPlane.Execution.EmergencyStop
import Asmodeus.ControlPlane.Persistent.Atomicity
import Asmodeus.ControlPlane.Registry.Durability
import Asmodeus.ControlPlane.Registry.Fencing
import Asmodeus.ControlPlane.Scheduler.Ledger
import Asmodeus.ControlPlane.Scheduler.Spacing
import Asmodeus.Runner.Datapath
import Asmodeus.Runner.Health
import Asmodeus.Runner.Reason
import Asmodeus.Runner.SignedPlan
import Asmodeus.ControlPlane.Admission
import Asmodeus.ControlPlane.Reporting
import Asmodeus.Telemetry.Clickhouse
import Asmodeus.Telemetry.Compliance
import Asmodeus.Telemetry.Preimage
import Asmodeus.Telemetry.Reporting
import Asmodeus.ControlPlane.Campaign.Retention
import Asmodeus.ControlPlane.Campaign.Snapshot
import Asmodeus.ControlPlane.Campaign.Stages
import Asmodeus.ControlPlane.Catalog.Loading
import Asmodeus.ControlPlane.Matrix.Spelling
import Asmodeus.Dsl.Yaml.Render
import Asmodeus.Telemetry.Timestamp
import Asmodeus.Common.HexReaders
import Asmodeus.Dsl.Net.Cidr
import Asmodeus.Runner.ProcedureSuite
import Asmodeus.Runner.NetChaos.Sessions
import Asmodeus.ControlPlane.Campaign.Stopping
import Asmodeus.Runner.Host.Isolation
import Asmodeus.Runner.ProcedureLocal.Suite
import Asmodeus.ControlPlane.Execution.Authenticity
