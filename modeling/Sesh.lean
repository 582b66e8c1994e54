import Sesh.Machine
import Sesh.Loop
import Sesh.ByteStore
import Sesh.TaskList
import Sesh.Chan
import Sesh.BigEndian
import Sesh.CreditFlow
import Sesh.Scanner
import Sesh.Runs
import Sesh.Matches
import Sesh.ShellWords
import Sesh.HereDoc
import Sesh.ShellScript
import Sesh.Text
import Sesh.Hosts
import Sesh.TempFiles
import Sesh.SerialRun
import Sesh.ParallelRun
import Sesh.ParallelFiles
import Sesh.Batching
import Sesh.Interrupt
import Sesh.Refinement
import Sesh.HostBounds
import Sesh.Shutdown
import Sesh.FileTail
import Sesh.TailLines
import Sesh.LineEndings
import Sesh.DirCat
import Sesh.CenterText
import Sesh.Selection
import Sesh.FirstPaint
import Sesh.ScpRun
import Sesh.RemoteScript
import Sesh.Command
import Sesh.AuthKeys
import Sesh.KnownHosts
import Sesh.Cowsay
import Sesh.Wrap
import Sesh.Main
import Sesh.Template
import Sesh.TemplateValues
import Sesh.Endpoint
import Sesh.SshAuth
import Sesh.SshMessages
import Sesh.SshChannel
import Sesh.SshEnd
import Sesh.SshLink
import Sesh.SshFlow
import Sesh.SshEof
import Sesh.SshLive
import Sesh.SshRequests
import Sesh.SshSession
import Sesh.Symmetric
import Sesh.SshCipher
import Sesh.SshTransport
import Sesh.SshKex
import Sesh.SshHandshake
import Sesh.SshRekey
import Sesh.SshRekeyLive
