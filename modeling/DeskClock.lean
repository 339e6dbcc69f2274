import DeskClock.Main
import DeskClock.Native.StandIn
import DeskClock.Window.Recording
import DeskClock.Proofs.Clock.Conditions
import DeskClock.Proofs.Clock.Correction
import DeskClock.Proofs.Clock.Frames
import DeskClock.Proofs.Clock.Handles
import DeskClock.Proofs.Clock.NextAlarm
import DeskClock.Proofs.Clock.Pacing
import DeskClock.Proofs.Clock.Phases
import DeskClock.Proofs.Clock.Reattach
import DeskClock.Proofs.Clock.Services
import DeskClock.Proofs.Clock.Window
import DeskClock.Proofs.ClockFace
import DeskClock.Proofs.CommandLine
import DeskClock.Proofs.Config.Partial
import DeskClock.Proofs.Config.Reload
import DeskClock.Proofs.Config.Saving
import DeskClock.Proofs.Native.Loading
import DeskClock.Proofs.Native.Texts
import DeskClock.Proofs.Weather.Degrees
import DeskClock.Proofs.Weather.Rearranged
import DeskClock.Proofs.Weather.Temperatures
