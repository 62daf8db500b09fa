import Switchboard.Flow.Palette
import Switchboard.Main
import Switchboard.Proofs.Call.Run
import Switchboard.Proofs.Flow.StoredBlock
import Switchboard.Proofs.Editor.Saving
import Switchboard.Proofs.Flow.Reach
import Switchboard.Store.Address
import Switchboard.Reading
import Switchboard.Proofs.Flow.Accepted
import Switchboard.Proofs.Call.Steady
import Switchboard.Proofs.Call.Plain
import Switchboard.Proofs.PhoneNumber
import Switchboard.Proofs.Store.RoundTrip
import Switchboard.Proofs.Editor.Reopening
import Switchboard.Proofs.Service.Readable
import Switchboard.Proofs.Editor.SoundGraph
import Switchboard.Proofs.Editor.Answering
import Switchboard.Proofs.Service.Voice
import Switchboard.Proofs.Call.Confined
import Switchboard.Proofs.Call.Position
import Switchboard.Proofs.Store.Conflict
import Switchboard.Proofs.Store.CallLog
import Switchboard.Proofs.Store.Governing
import Switchboard.Proofs.Editor.Connection
import Switchboard.Proofs.Editor.Mirror
import Switchboard.Proofs.Flow.WellFormed
import Switchboard.Proofs.Service.Owner
import Switchboard.Proofs.Service.Requests
import Switchboard.Proofs.Service.Upload
import Switchboard.Proofs.Editor.Flight
import Switchboard.Proofs.Editor.Opening
import Switchboard.Proofs.Editor.Spread
import Switchboard.Proofs.Flow.Covering
import Switchboard.Proofs.Flow.Unreached
import Switchboard.Proofs.Call.Prompting
import Switchboard.Proofs.Call.Fitting
import Switchboard.Proofs.Call.Numeric
import Switchboard.Proofs.Editor.Binding
import Switchboard.Proofs.Editor.Removal
import Switchboard.Proofs.Flow.NodeMap
import Switchboard.Proofs.Service.Creation
import Switchboard.Proofs.Store.Address
import Switchboard.Proofs.Store.Spelling
import Switchboard.Proofs.Simulation.Signed
