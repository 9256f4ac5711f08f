import Defib.BlockMemory
import Defib.Spans
import Defib.Words
import Defib.Crc32
import Defib.NorDrivers
import Defib.NorReach
import Defib.Boards
import Defib.FlashDevice
import Defib.AgentMachine
import Defib.AgentReads
import Defib.ReadCrcAgreement
import Defib.ReadMemory
import Defib.ScanFlash
import Defib.NandCall
import Defib.AgentFlash
import Defib.AgentTransfers
import Defib.FlashRangeSafety
import Defib.Runs
import Defib.BaudLink
import Defib.UartDivisor
import Defib.TftpServer
import Defib.TftpDelivery
import Defib.TftpInvariant
import Defib.Dicts
import Defib.UbiImage
import Defib.PyText
import Defib.Mtdparts
import Defib.MtdpartsAgreement
import Defib.Dialogue
import Defib.Restore
import Defib.RestoreSuccess
import Defib.RestoreRanges
import Defib.EchoEntry
import Defib.MdOutput
import Defib.MdDisplay
import Defib.DumpFlash
import Defib.VerifiedDump
import Defib.ConsoleDump
import Defib.TransferRuns
import Defib.AddressSeparation
import Defib.RamWriteSafety
import Defib.Cobs
import Defib.CobsCodecs
import Defib.ProtoRecv
import Defib.Receivers
import Defib.BootFrames
import Defib.BootUpload
import Defib.Regex
import Defib.UbootReplies
import Defib.Install
import Defib.InstallRanges
import Defib.StopAndWait
import Defib.BootAck
import Defib.YModemPackets
import Defib.YModemSend
import Defib.AckCredit
import Defib.AgentWire
import Defib.WriteMemory
import Defib.RamUpload
import Defib.CaptureFormat
import Defib.ByteReader
import Defib.RouterOsWire
import Defib.RouterOsCalls
import Defib.Actions
import Defib.PoePorts
import Defib.Novatek
import Defib.Rockusb
import Defib.SplSize
import Defib.RackFastboot
import Defib.FirmwareCache
import Defib.Cv6xxBoot
import Defib.Cv6xxWeb
import Defib.MdRoundTrip
import Defib.EraseFlash
import Defib.FlashProgram
import Defib.MemoryBandwidth
import Defib.StreamPipeline
import Defib.ScanClassification
import Defib.CaptureReplay
import Defib.Routines
import Defib.VerifyRepair
import Defib.Cv6xxLayout
import Defib.SplUpload
import Defib.V500Image
import Defib.ReplySearch
import Defib.TftpCompletion
import Defib.DhcpServer
import Defib.TemporaryIp
import Defib.MtdpartsLookup
import Defib.RestoreBackup
import Defib.NandStudy
import Defib.WebDisplay
import Defib.WebDump
import Defib.RockusbCodec
import Defib.ShiftRegisters
import Defib.Crc16
import Defib.CrcBursts
import Defib.Crc32Agreement
import Defib.Maskrom
import Defib.RockusbLoader
import Defib.DownloadCommand
import Defib.FfRuns
import Defib.Rings
import Defib.SoftRx
import Defib.StreamImage
import Defib.Trampoline
