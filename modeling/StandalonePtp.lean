import StandalonePtp.Run
import StandalonePtp.Words
import StandalonePtp.Parts
import StandalonePtp.Truncation
import StandalonePtp.Servo
import StandalonePtp.Crc
import StandalonePtp.Bytes
import StandalonePtp.PtpSync
import StandalonePtp.Codec
import StandalonePtp.Receive
import StandalonePtp.TsuTime
import StandalonePtp.Timesync
import StandalonePtp.Ptp
import StandalonePtp.History
import StandalonePtp.Request
import StandalonePtp.Exchange
import StandalonePtp.Precision
import StandalonePtp.Interference
import StandalonePtp.Slave
import StandalonePtp.Counter
import StandalonePtp.Setting
import StandalonePtp.Resync
import StandalonePtp.Service
import StandalonePtp.Status
import StandalonePtp.Pulse
import StandalonePtp.Coarse
import StandalonePtp.Discipline
import StandalonePtp.Integrator
import StandalonePtp.Steering
import StandalonePtp.PulseFilter
import StandalonePtp.Lock
import StandalonePtp.Contraction
import StandalonePtp.Gptp
import StandalonePtp.Ethernet
import StandalonePtp.Flow
import StandalonePtp.Ring
import StandalonePtp.Transmit
import StandalonePtp.Handover
import StandalonePtp.Descriptors
import StandalonePtp.Queue
import StandalonePtp.Reception
import StandalonePtp.Chains
import StandalonePtp.Multicast
import StandalonePtp.Framing
import StandalonePtp.Station
import StandalonePtp.Driver
import StandalonePtp.Network
import StandalonePtp.Startup
import StandalonePtp.Uptime
import StandalonePtp.Watchdog
import StandalonePtp.Burst
import StandalonePtp.HashTable
import StandalonePtp.Tracking
