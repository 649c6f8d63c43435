import Atsha204.Library.Program
import Atsha204.Library.Retry
import Atsha204.Library.Simulation
import Atsha204.Library.Memory
import Atsha204.Library.Lines
import Atsha204.Library.Pairs
import Atsha204.Library.Crc
import Atsha204.Library.Interaction
import Atsha204.Model.State
import Atsha204.Model.Tools
import Atsha204.Model.Operations
import Atsha204.Model.LayerNi2c
import Atsha204.Model.TextFile
import Atsha204.Model.Emulation
import Atsha204.Model.Communication
import Atsha204.Model.Api
import Atsha204.Model.Dnsmagic
import Atsha204.Model.ChipTools
import Atsha204.Model.ChallengeInput
import Atsha204.Model.BusCall
import Atsha204.Model.LockFile
import Atsha204.Model.ChipTest
import Atsha204.Model.ChipCommands
import Atsha204.Model.Clients
import Atsha204.Interface.Link
import Atsha204.Interface.Session
import Atsha204.Interface.WriteRequest
import Atsha204.Interface.Delivery
import Atsha204.Interface.Chip
import Atsha204.Interface.EmulatedStorage
import Atsha204.Interface.Packets
import Atsha204.Interface.HexText
import Atsha204.Interface.Provisioning
import Atsha204.Interface.Challenge
import Atsha204.Interface.ApiCall
import Atsha204.Interface.SlotAnnouncement
import Atsha204.Interface.EmulatedDevice
import Atsha204.Interface.LockedContent
import Atsha204.Interface.BusCalls
import Atsha204.Interface.LockFile
import Atsha204.Interface.Device
import Atsha204.Interface.DeviceLink
import Atsha204.Interface.ReadingCalls
import Atsha204.Interface.Dumps
import Atsha204.Interface.SharedChip
import Atsha204.Interface.Authentication
import Atsha204.Analysis.PacketCodec
import Atsha204.Analysis.ErrorDetection
import Atsha204.Analysis.Operations
import Atsha204.Analysis.RoundTrip
import Atsha204.Analysis.Communication
import Atsha204.Analysis.Exchanges
import Atsha204.Analysis.Reception
import Atsha204.Analysis.WakeFlag
import Atsha204.Analysis.WriteRequests
import Atsha204.Analysis.Delivery
import Atsha204.Analysis.ChipExchange
import Atsha204.Analysis.LockOutcome
import Atsha204.Analysis.ConfigFile
import Atsha204.Analysis.EmulatedStorage
import Atsha204.Analysis.EmulatedFile
import Atsha204.Analysis.HexText
import Atsha204.Analysis.ProvisioningFile
import Atsha204.Analysis.Challenge
import Atsha204.Analysis.ServerEmulation
import Atsha204.Analysis.ApiSessions
import Atsha204.Analysis.Decoders
import Atsha204.Analysis.ClosedSessions
import Atsha204.Analysis.SlotAnnouncement
import Atsha204.Analysis.EmulatedDevice
import Atsha204.Analysis.EmulatedAnswers
import Atsha204.Analysis.EmulatedCalls
import Atsha204.Analysis.AnswerShape
import Atsha204.Analysis.ChipSessions
import Atsha204.Analysis.LockedContent
import Atsha204.Analysis.CrcDivision
import Atsha204.Analysis.FourBytes
import Atsha204.Analysis.IdleLoop
import Atsha204.Analysis.MessageBinding
import Atsha204.Analysis.EmulatedHandle
import Atsha204.Analysis.CachedSerial
import Atsha204.Analysis.MacList
import Atsha204.Analysis.SetAddress
import Atsha204.Analysis.ParseReads
import Atsha204.Analysis.BusCalls
import Atsha204.Analysis.LockFile
import Atsha204.Analysis.LockSignals
import Atsha204.Analysis.LockTurns
import Atsha204.Analysis.DeviceSessions
import Atsha204.Analysis.DeviceLink
import Atsha204.Analysis.HonestSessions
import Atsha204.Analysis.FileStandsIn
import Atsha204.Analysis.ChipTest
import Atsha204.Analysis.ReadingCalls
import Atsha204.Analysis.Dumps
import Atsha204.Analysis.SharedChip
import Atsha204.Analysis.ClientSessions
import Atsha204.Analysis.Authentication
import Atsha204.Analysis.CommandLine
import Atsha204.Analysis.Trails
import Atsha204.Analysis.Waits
import Atsha204.Interface.Alarm
import Atsha204.Interface.CommandLine
import Atsha204.Interface.CrcDivision
import Atsha204.Interface.EmulatedHandle
import Atsha204.Interface.FourBytes
import Atsha204.Interface.IdleLoop
import Atsha204.Interface.MacList
import Atsha204.Interface.MessageBinding
import Atsha204.Interface.ParseReads
import Atsha204.Interface.SetAddress
import Atsha204.Library.CrcPolynomial
import Atsha204.Model.MacCommand
import Atsha204.Model.SetAddress
import Atsha204.Analysis.NativeSessions
import Atsha204.Analysis.OpenFiles
import Atsha204.Analysis.InitAlarm
