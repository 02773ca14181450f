import RkFlashd.Text.Bytes
import RkFlashd.Text.Numeral
import RkFlashd.Text.Utf8
import RkFlashd.Text.Fields
import RkFlashd.Text.HexCase
import RkFlashd.Text.Lines
import RkFlashd.Text.Json
import RkFlashd.Text.Shell
import RkFlashd.Text.Fgets
import RkFlashd.Machine.Execution
import RkFlashd.Machine.Lockstep
import RkFlashd.Machine.Ledger
import RkFlashd.Machine.Simulation
import RkFlashd.Machine.Turns
import RkFlashd.Storage.FileSystem
import RkFlashd.Storage.Calls
import RkFlashd.Storage.Path
import RkFlashd.Storage.Directories
import RkFlashd.Storage.Descriptors
import RkFlashd.Checksum.BlockStream
import RkFlashd.Checksum.CRC16
import RkFlashd.Checksum.MD5
import RkFlashd.Checksum.RFC1321
import RkFlashd.Checksum.MD5Streaming
import RkFlashd.Checksum.CRCDetection
import RkFlashd.Checksum.CRCPolynomial
import RkFlashd.Daemon.Config
import RkFlashd.Daemon.Lock
import RkFlashd.AtCommand
import RkFlashd.AtHandler.Basic
import RkFlashd.AtHandler.Upload
import RkFlashd.AtHandler.Transfer
import RkFlashd.AtHandler.PreuploadGrammar
import RkFlashd.AtHandler.FrameGrammar
import RkFlashd.AtHandler.FrameAcceptance
import RkFlashd.AtHandler.UploadRuns
import RkFlashd.AtHandler.UploadIntegrity
import RkFlashd.AtHandler.StoredFiles
import RkFlashd.AtHandler.HexCase
import RkFlashd.AtHandler.Flash
import RkFlashd.AtHandler.FlashRuns
import RkFlashd.AtHandler.FlashReports
import RkFlashd.AtHandler.FlashWaiting
import RkFlashd.AtHandler.FlashTimeout
import RkFlashd.AtHandler.FlashCommand
import RkFlashd.AtHandler.FlashOutput
import RkFlashd.AtHandler.System
import RkFlashd.Process
import RkFlashd.Daemon.Components
import RkFlashd.AtHandler.Verify
import RkFlashd.AtHandler.UploadRoundTrip
import RkFlashd.AtHandler.FrameErrors
import RkFlashd.Daemon.Session
import RkFlashd.Daemon.SessionSafety
import RkFlashd.Daemon.CommandGate
import RkFlashd.Daemon.UploadSession
import RkFlashd.HttpServer.Connection
import RkFlashd.HttpServer.Multipart
import RkFlashd.HttpServer.WriteFailures
import RkFlashd.HttpServer.Cleanup
import RkFlashd.HttpServer.UploadError
import RkFlashd.HttpServer.ConcurrentUploads
import RkFlashd.Daemon.FileCalls
import RkFlashd.Daemon.Confinement
import RkFlashd.HttpServer.SharedDirectory
import RkFlashd.Daemon.AnswerText
import RkFlashd.HttpServer.Command
import RkFlashd.HttpServer.Access
import RkFlashd.HttpServer.Requests
import RkFlashd.Serial.SerialPort
import RkFlashd.Serial.Handles
import RkFlashd.Serial.RoundTrip
import RkFlashd.Serial.Reader
import RkFlashd.Serial.ForceReset
import RkFlashd.Serial.Framing
import RkFlashd.Serial.Reconnect
import RkFlashd.Serial.Shutdown
import RkFlashd.Daemon.AnswerLines
import RkFlashd.Daemon.AnswerStatus
import RkFlashd.Serial.Answers
import RkFlashd.Serial.Delivery
import RkFlashd.Serial.UploadLink
import RkFlashd.HttpServer.StatusReport
import RkFlashd.Daemon.Options
import RkFlashd.Daemon.Startup
import RkFlashd.Daemon.CommandLine
import RkFlashd.Daemon.Daemonize
import RkFlashd.Daemon.Exit
