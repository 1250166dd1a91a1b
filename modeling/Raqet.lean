import Raqet.Evidence.Frame
import Raqet.Evidence.Transparency
import Raqet.Evidence.Crash
import Raqet.Evidence.Factory
import Raqet.Evidence.Sharing
import Raqet.IScsi.LogicalUnit
import Raqet.IScsi.BlockReader
import Raqet.IScsi.Tiling
import Raqet.IScsi.Readers
import Raqet.IScsi.Acquisition
import Raqet.IScsi.WriteOnce
import Raqet.IScsi.InputData
import Raqet.Java.File
import Raqet.Remote.DeviceManager
import Raqet.Evidence.Stores
import Raqet.IScsi.Delivery
import Raqet.Smb.NetworkFile
import Raqet.Smb.VirtualDisk
import Raqet.Java.FileSystem
import Raqet.Database.InvestigationCaseDB
import Raqet.Http.ClientInfo
import Raqet.Http.RaqetControl
import Raqet.Database.Ownership
import Raqet.Http.EvidenceNames
import Raqet.Remote.Accounting
import Raqet.Remote.Agreement
import Raqet.Java.Text
import Raqet.Smb.DiskDriver
import Raqet.Http.Publishing
import Raqet.Http.Duplicates
import Raqet.Http.Registration
import Raqet.Database.Entries
import Raqet.Http.Binding
import Raqet.Http.StorageFolders
import Raqet.Database.UniqueIds
import Raqet.Http.Restarts
import Raqet.Java.Resolve
import Raqet.Http.Writes
import Raqet.Http.Confinement
import Raqet.IScsi.InFlight
import Raqet.IScsi.Outcomes
import Raqet.IScsi.ReadAhead
import Raqet.IScsi.Exactness
import Raqet.Remote.Cleanup
import Raqet.IScsi.ReadFuture
import Raqet.Evidence.FailedStore
import Raqet.IScsi.Window
import Raqet.IScsi.Credentials
import Raqet.Remote.LogicalUnits
import Raqet.Http.UnmappedDisks
import Raqet.Database.Atomicity
import Raqet.Http.Labels
import Raqet.Http.Keys
import Raqet.Smb.PathLookup
import Raqet.Util.FileUtilities
import Raqet.IScsi.SentCommand
import Raqet.Smb.ResumableContext
import Raqet.Smb.Resuming
import Raqet.Java.Recency
import Raqet.Evidence.Cache
import Raqet.Resource
import Raqet.Database.Refinement
import Raqet.IScsi.Connection
import Raqet.Remote.Targets
import Raqet.IScsi.Requests
import Raqet.Evidence.Recovery
import Raqet.Evidence.Image
import Raqet.Evidence.Isolation
import Raqet.Smb.FileServer
import Raqet.Server
import Raqet.Http.RecordedDisks
import Raqet.Smb.Imaging
import Raqet.Smb.Progress
import Raqet.Lifetime
