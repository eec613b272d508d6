import RadioModem.Bench
import RadioModem.Command.Printer
import RadioModem.Main
import RadioModem.Proofs.Alike
import RadioModem.Proofs.ByteCursor
import RadioModem.Proofs.ByteOrder
import RadioModem.Proofs.CalibrationLock
import RadioModem.Proofs.Chunks
import RadioModem.Proofs.CommandTable
import RadioModem.Proofs.CompleteEscape
import RadioModem.Proofs.Contract
import RadioModem.Proofs.Counters
import RadioModem.Proofs.DataPath
import RadioModem.Proofs.Decimal
import RadioModem.Proofs.Dispatch
import RadioModem.Proofs.Echo
import RadioModem.Proofs.Editor
import RadioModem.Proofs.Escape
import RadioModem.Proofs.Grammar
import RadioModem.Proofs.GuardWindow
import RadioModem.Proofs.Halts
import RadioModem.Proofs.IdentityWords
import RadioModem.Proofs.LetterCase
import RadioModem.Proofs.Lines
import RadioModem.Proofs.Modem
import RadioModem.Proofs.Moments
import RadioModem.Proofs.NoFalseEscape
import RadioModem.Proofs.Node
import RadioModem.Proofs.NodeAddress
import RadioModem.Proofs.OneReply
import RadioModem.Proofs.OutOfRange
import RadioModem.Proofs.Ownership
import RadioModem.Proofs.PendingLine
import RadioModem.Proofs.PinHistory
import RadioModem.Proofs.Records
import RadioModem.Proofs.Refusals
import RadioModem.Proofs.RegisterAccess
import RadioModem.Proofs.Registers
import RadioModem.Proofs.Relay
import RadioModem.Proofs.RelayQueue
import RadioModem.Proofs.RemoteCut
import RadioModem.Proofs.RemoteLines
import RadioModem.Proofs.Reports
import RadioModem.Proofs.Session
import RadioModem.Proofs.StartUp
import RadioModem.Proofs.Stream
import RadioModem.Proofs.TestModes
import RadioModem.Proofs.UsableSettings
import RadioModem.Proofs.Watchdog
