import WebcamStreamer.Attendance
import WebcamStreamer.AuthFailures
import WebcamStreamer.ClientSync
import WebcamStreamer.ClipboardUrls
import WebcamStreamer.CommandLine
import WebcamStreamer.CommandPipes
import WebcamStreamer.Commands
import WebcamStreamer.ConfigMeaning
import WebcamStreamer.CredentialFields
import WebcamStreamer.DataRoot
import WebcamStreamer.DefaultPicks
import WebcamStreamer.DeviceListing
import WebcamStreamer.ExternalText
import WebcamStreamer.FileWrites
import WebcamStreamer.FormatOrder
import WebcamStreamer.HookDelivery
import WebcamStreamer.HookMessages
import WebcamStreamer.IpcClient
import WebcamStreamer.OverrideFiles
import WebcamStreamer.PasswordHiding
import WebcamStreamer.PipeServers
import WebcamStreamer.ProbeWorker
import WebcamStreamer.ProcessHandles
import WebcamStreamer.ProgramRuns
import WebcamStreamer.PublishOrder
import WebcamStreamer.Quiescence
import WebcamStreamer.Readers
import WebcamStreamer.Reenumeration
import WebcamStreamer.Refusals
import WebcamStreamer.ReplaceLoop
import WebcamStreamer.RequestLoop
import WebcamStreamer.ResolutionMenu
import WebcamStreamer.RestartStorms
import WebcamStreamer.SettingSwitches
import WebcamStreamer.SettingsUpdates
import WebcamStreamer.SingleInstance
import WebcamStreamer.SlugKernel
import WebcamStreamer.SnapshotRepair
import WebcamStreamer.ThreadLocks
import WebcamStreamer.TrayMenu
import WebcamStreamer.UserPicks
import WebcamStreamer.VideoSizes
import WebcamStreamer.WideStrings
import WebcamStreamer.WireLines
