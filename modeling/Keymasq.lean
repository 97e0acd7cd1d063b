import Keymasq.Action.SequenceOrder
import Keymasq.Activation.Live
import Keymasq.Activation.Requests
import Keymasq.Analog.AreaMouse
import Keymasq.Analog.TouchpadFlush
import Keymasq.Combo.Completion
import Keymasq.Combo.Indexes
import Keymasq.Combo.Pulses
import Keymasq.Combo.Reload
import Keymasq.Combo.Transitions
import Keymasq.Device.Remapping
import Keymasq.Device.Stuck
import Keymasq.Device.Withholding
import Keymasq.Feedback.Ordering
import Keymasq.Grab.Hiding
import Keymasq.Grab.Interfaces
import Keymasq.Handoff.Owners
import Keymasq.Ipc.Listening
import Keymasq.Ipc.Ownership
import Keymasq.MacroEditor.Pauses
import Keymasq.MacroEditor.Reopening
import Keymasq.Macros.Blocks
import Keymasq.Macros.Expansion
import Keymasq.Macros.Holding
import Keymasq.Macros.Looping
import Keymasq.Macros.Pausing
import Keymasq.Macros.ReplayCache
import Keymasq.Macros.Revisions
import Keymasq.Macros.Timeline
import Keymasq.Masking.Admission
import Keymasq.Masking.Authority
import Keymasq.Masking.Undo
import Keymasq.Pointer.NaturalMove
import Keymasq.Profile.GroupStorage
import Keymasq.Profile.References
import Keymasq.Profile.StoreAgreement
import Keymasq.Profile.WindowUpdates
import Keymasq.Recording.SlotFiles
import Keymasq.Rollover.Layout
import Keymasq.Rollover.Recalls
import Keymasq.Session.Lifecycle
import Keymasq.Session.Resolvable
import Keymasq.Session.Skipping
import Keymasq.Session.SlotTable
import Keymasq.Superkey.Slots
import Keymasq.Superkey.Unheld
import Keymasq.Topology.Regrabs
import Keymasq.TypeMacro.Calls
import Keymasq.Wayland.ClientTransport
