import RecoveryMenu.Foundations.TransitionSystem
import RecoveryMenu.Utils.NotificationLed
import RecoveryMenu.Foundations.BigEndian
import RecoveryMenu.Foundations.ByteMemory
import RecoveryMenu.Foundations.CString
import RecoveryMenu.Foundations.ChunkedTransfer
import RecoveryMenu.Foundations.Lifetime
import RecoveryMenu.Foundations.Ledger
import RecoveryMenu.Foundations.Pkcs1
import RecoveryMenu.Foundations.Places
import RecoveryMenu.Foundations.Reading
import RecoveryMenu.Foundations.ShiftRegister
import RecoveryMenu.Foundations.ShiftRegister.Order
import RecoveryMenu.Foundations.ArmBranch
import RecoveryMenu.Foundations.Raster
import RecoveryMenu.Foundations.SerialFrame
import RecoveryMenu.Foundations.Polling
import RecoveryMenu.Foundations.Selection
import RecoveryMenu.BuildRecoveryFile
import RecoveryMenu.Ccr
import RecoveryMenu.Fsa
import RecoveryMenu.Fsa.Message
import RecoveryMenu.Gfx
import RecoveryMenu.Gfx.Font
import RecoveryMenu.Gfx.Print
import RecoveryMenu.Gfx.Rect
import RecoveryMenu.Handles
import RecoveryMenu.InitNetconf
import RecoveryMenu.Kernel.Branch
import RecoveryMenu.Kernel.LolSerial
import RecoveryMenu.Kernel.LolSerial.Wait
import RecoveryMenu.Kernel.Main
import RecoveryMenu.MdInfo
import RecoveryMenu.MdInfo.Lookup
import RecoveryMenu.Menu
import RecoveryMenu.Menu.DrawMenu
import RecoveryMenu.Menu.Framebuffer
import RecoveryMenu.Menu.MenuLoop
import RecoveryMenu.MiniGmp.Division
import RecoveryMenu.MiniGmp.ImportExport
import RecoveryMenu.MiniGmp.Powm
import RecoveryMenu.Minilzo
import RecoveryMenu.Minilzo.Parse
import RecoveryMenu.NetConf
import RecoveryMenu.NetDb
import RecoveryMenu.NetDb.AddressList
import RecoveryMenu.NetDb.History
import RecoveryMenu.NetDb.Relocation
import RecoveryMenu.Options.DebugSystemRegion
import RecoveryMenu.Options.DumpOtpAndSeeprom
import RecoveryMenu.Options.DumpSyslogs
import RecoveryMenu.Options.EditParental
import RecoveryMenu.Options.InstallWUP
import RecoveryMenu.Options.InstallWUP.Handshake
import RecoveryMenu.Options.InstallWUP.HandshakeSafe
import RecoveryMenu.Options.InstallWUP.Ownership
import RecoveryMenu.Options.LoadBoot1Payload
import RecoveryMenu.Options.LoadBoot1Payload.ActiveSlot
import RecoveryMenu.Options.LoadBoot1Payload.Autoboot
import RecoveryMenu.Options.LoadBoot1Payload.Damage
import RecoveryMenu.Options.LoadBoot1Payload.Image
import RecoveryMenu.Options.LoadBoot1Payload.Payload
import RecoveryMenu.Options.LoadBoot1Payload.Prsh
import RecoveryMenu.Options.LoadBoot1Payload.Slots
import RecoveryMenu.Options.LoadNetConf.ConfigValue
import RecoveryMenu.Options.LoadNetConf.Fields
import RecoveryMenu.Options.LoadNetConf.Lines
import RecoveryMenu.Options.LoadNetConf.Option
import RecoveryMenu.Options.LoadNetConf.Relations
import RecoveryMenu.Options.LoadNetConf.Scan
import RecoveryMenu.Options.LoadNetConf.Values
import RecoveryMenu.Options.PairDRC
import RecoveryMenu.Options.PairDRC.Outcome
import RecoveryMenu.Options.RegionRange
import RecoveryMenu.Options.RegionWrite
import RecoveryMenu.Options.SetColdbootTitle
import RecoveryMenu.Options.SubmitSystemData.Body
import RecoveryMenu.Options.SubmitSystemData.HttpReads
import RecoveryMenu.Options.SubmitSystemData.Layout
import RecoveryMenu.Options.SubmitSystemData.Release
import RecoveryMenu.Options.SubmitSystemData.Response
import RecoveryMenu.Options.SubmitSystemData.Serial
import RecoveryMenu.Options.SubmitSystemData.SerialShown
import RecoveryMenu.Options.SubmitSystemData.StatusLine
import RecoveryMenu.Options.SystemInformation
import RecoveryMenu.ReadyLed
import RecoveryMenu.Rsa
import RecoveryMenu.Rsa.Limbs
import RecoveryMenu.Rsa.RawEncrypt
import RecoveryMenu.Utils.CopyFile
import RecoveryMenu.Utils.Crc32.Burst
import RecoveryMenu.Utils.Crc32.Remainder
import RecoveryMenu.Wupserver.Client
import RecoveryMenu.Wupserver.Semantics
import RecoveryMenu.Wupserver.SingleServer
import RecoveryMenu.Wupserver.Start
import RecoveryMenu.Wupserver.Stop
