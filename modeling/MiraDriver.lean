import MiraDriver.Program
import MiraDriver.Daemon
import MiraDriver.Reporter
import MiraDriver.LogTail
import MiraDriver.ReadSurface
import MiraDriver.LogLines
import MiraDriver.LogLoss
import MiraDriver.Stats
import MiraDriver.Aggregates
import MiraDriver.Outage
import MiraDriver.Incarnations
import MiraDriver.Sinks
import MiraDriver.Utilization
import MiraDriver.Admin
import MiraDriver.Isolation
import MiraDriver.Receivers
import MiraDriver.Schedule
import MiraDriver.Clients
import MiraDriver.Bounds
import MiraDriver.Footprint
import MiraDriver.Steady
import MiraDriver.Wire
import MiraDriver.Load
import MiraDriver.Secrets
import MiraDriver.Cardinality
import MiraDriver.Harmless
import MiraDriver.Headers
import MiraDriver.Gauges
import MiraDriver.Telemetry
