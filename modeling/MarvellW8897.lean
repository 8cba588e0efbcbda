import MarvellW8897.Properties.BarRecords
import MarvellW8897.Properties.BringupRecord
import MarvellW8897.Properties.Candidates
import MarvellW8897.Properties.Cleanup
import MarvellW8897.Properties.Collect
import MarvellW8897.Properties.Conversation
import MarvellW8897.Properties.CrossWiring
import MarvellW8897.Properties.Decoding
import MarvellW8897.Properties.History
import MarvellW8897.Properties.Install
import MarvellW8897.Properties.MmioSafety
import MarvellW8897.Properties.Numerals
import MarvellW8897.Properties.Ownership
import MarvellW8897.Properties.Probe
import MarvellW8897.Properties.ProbeBuffers
import MarvellW8897.Properties.ProbeReport
import MarvellW8897.Properties.RecordStates
import MarvellW8897.Properties.RegisterClients
import MarvellW8897.Properties.RegisterFile
import MarvellW8897.Properties.Requests
import MarvellW8897.Properties.ResourceOrder
import MarvellW8897.Properties.Stage
import MarvellW8897.Properties.TxWritePointer
import MarvellW8897.Properties.Updatable
import MarvellW8897.Properties.UpdateConfig
