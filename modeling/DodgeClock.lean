import DodgeClock.ShotClock
import DodgeClock.OnceQueue
import DodgeClock.Controller
import DodgeClock.Transitions
import DodgeClock.RefereeClock
import DodgeClock.ClockAgreement
import DodgeClock.WholeCallbacks
import DodgeClock.Pause
import DodgeClock.TickConsistency
import DodgeClock.PowerOff
import DodgeClock.IdleSleep
import DodgeClock.PairingOrder
import DodgeClock.ButtonLine
import DodgeClock.ButtonDelivery
import DodgeClock.Advertising
import DodgeClock.OpenAdvertising
import DodgeClock.ClockCharacteristic
import DodgeClock.Screen
import DodgeClock.LinkStatus
import DodgeClock.AppThread
import DodgeClock.HandleAssignment
import DodgeClock.Discovery
import DodgeClock.Notifications
import DodgeClock.Display
import DodgeClock.Boot
import DodgeClock.ConnReference
import DodgeClock.Reconnection
import DodgeClock.ConnectionLife
import DodgeClock.SubscriptionState
import DodgeClock.BootOrder
import DodgeClock.BlobRead
import DodgeClock.ClockRead
import DodgeClock.AttributeRead
import DodgeClock.Payload
import DodgeClock.AcceptList
import DodgeClock.SampledCountdown
import DodgeClock.CountdownShown
import DodgeClock.InterfaceInit
import DodgeClock.ClientInit
import DodgeClock.LossyChannel
import DodgeClock.Network
import DodgeClock.NetworkChannel
import DodgeClock.RemoteCountdown
import DodgeClock.Deadlines
import DodgeClock.Expiries
import DodgeClock.WorkQueue
import DodgeClock.LastPress
import DodgeClock.Buzzer
import DodgeClock.CountdownHeard
import DodgeClock.PanelAgreement
import DodgeClock.TrustedPeers
import DodgeClock.RemoteStandstill
import DodgeClock.CatchUp
import DodgeClock.Arming
import DodgeClock.Crc
import DodgeClock.RamRetention
import DodgeClock.Retained
