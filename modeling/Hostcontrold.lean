import Hostcontrold.Controller.Announcements
import Hostcontrold.Controller.ClockSteps
import Hostcontrold.Controller.Grace
import Hostcontrold.Controller.Host
import Hostcontrold.Controller.Latency
import Hostcontrold.Controller.Overflow
import Hostcontrold.Controller.Policy
import Hostcontrold.Controller.Rate
import Hostcontrold.Controller.Repair
import Hostcontrold.Controller.StatusFiles
import Hostcontrold.Controller.Stop
import Hostcontrold.Daemon.Isolation
import Hostcontrold.Daemon.Promptness
import Hostcontrold.Daemon.SaveLoad
import Hostcontrold.Network.Iterator
import Hostcontrold.Network.Language
import Hostcontrold.System.Changes
import Hostcontrold.System.ConfigFile
import Hostcontrold.System.History
import Hostcontrold.System.Network
import Hostcontrold.System.Signals
import Hostcontrold.System.Waking
import Hostcontrold.Utils.IOStreamFile
