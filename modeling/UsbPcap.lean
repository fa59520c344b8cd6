import UsbPcap.Driver.Lengths
import UsbPcap.Driver.Reading
import UsbPcap.Driver.Removal
import UsbPcap.Driver.Allocation
import UsbPcap.Driver.Attach
import UsbPcap.Driver.Interfaces
import UsbPcap.Driver.Directions
import UsbPcap.Driver.RootHub
import UsbPcap.Service.TaskStore
import UsbPcap.Service.Monitoring
import UsbPcap.Service.Exclusion
import UsbPcap.Service.Admission
import UsbPcap.Cmd.Capture
import UsbPcap.Cmd.FastPath
import UsbPcap.Cmd.Selection
import UsbPcap.Cmd.WorkerQuoting
import UsbPcap.Reader.Statistics
import UsbPcap.Cmd.WorkerLength
import UsbPcap.Cmd.Safety
import UsbPcap.Service.Probe
import UsbPcap.Service.Denotation
import UsbPcap.Service.ConfigFile
import UsbPcap.Service.Exports
import UsbPcap.Service.History
import UsbPcap.Service.Waiting
import UsbPcap.Service.Normalization
import UsbPcap.Reader.Ordering
import UsbPcap.Cmd.UpperFilter
import UsbPcap.Cmd.Discovery
import UsbPcap.Service.StopReasons
import UsbPcap.Service.PcapPath
import UsbPcap.Cmd.DeviceTree
import UsbPcap.Cmd.Descriptors
import UsbPcap.Cmd.Capacity
import UsbPcap.Cmd.MultiSz
import UsbPcap.Cmd.Listing
import UsbPcap.Driver.Dispatch
import UsbPcap.Cmd.OptionLoop
import UsbPcap.Pipeline
import UsbPcap.Requests
import UsbPcap.RootHubs
import UsbPcap.Cmd.EventLoop
import UsbPcap.Cmd.Stopping
import UsbPcap.StoppedCapture
