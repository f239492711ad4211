import Xmodem.Bench.ScriptedLine
import Xmodem.Bench.Workstation
import Xmodem.HexDump.Reader
import Xmodem.Line.Record
import Xmodem.Main
import Xmodem.Proofs.Acknowledgement
import Xmodem.Proofs.Reception
import Xmodem.Proofs.Delivery
import Xmodem.Proofs.Epilogue
import Xmodem.Proofs.Termination
import Xmodem.Proofs.Attempts
import Xmodem.Proofs.Upload
import Xmodem.Proofs.Loss
import Xmodem.Proofs.ClockShift
import Xmodem.Proofs.Leeway
import Xmodem.Proofs.Stream
import Xmodem.Proofs.Room
import Xmodem.Proofs.Abandonment
import Xmodem.Proofs.Untouched
import Xmodem.Proofs.TrueTime
import Xmodem.Proofs.Verdict
import Xmodem.Proofs.Corruption
import Xmodem.Proofs.Silence
import Xmodem.Proofs.Exit
import Xmodem.Proofs.SerialDevice
import Xmodem.Proofs.Timeouts
import Xmodem.Proofs.DumpLayout
import Xmodem.Proofs.Flushing
