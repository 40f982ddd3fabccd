import DashBeam.Protocol.Transmission
import DashBeam.Protocol.Ledger
import DashBeam.Receive.PartialStore
import DashBeam.Receive.Row
import DashBeam.Share.Row
import DashBeam.Node.Consent
import DashBeam.Node.Aborts
import DashBeam.Node.ProvenKey
import DashBeam.Node.Window
import DashBeam.Node.Agreement
import DashBeam.Node.Revocation
import DashBeam.Node.Admission
import DashBeam.Node.Restriction
import DashBeam.Node.Presence
import DashBeam.Node.Mutual
import DashBeam.Native.RateBound
import DashBeam.Native.HistoryReaders
import DashBeam.Native.Waiters
import DashBeam.Native.NetworkTransitions
import DashBeam.Node.Unlisted
import DashBeam.Node.Grace
import DashBeam.Node.Loops
import DashBeam.Collection.Names
import DashBeam.Lib.Bytes
import DashBeam.Lib.Framing
import DashBeam.Protocol.Framing
import DashBeam.Frontend.Crc32
import DashBeam.Lib.Unicode
import DashBeam.Frontend.Zip
import DashBeam.Frontend.ZipReader
import DashBeam.Collection.Export
import DashBeam.Collection.Preview
import DashBeam.Collection.WebPreview
import DashBeam.Desktop.HistoryRecordingEmitter
import DashBeam.Frontend.Receiver
import DashBeam.Frontend.NearbyStore
import DashBeam.Receive.Stranded
import DashBeam.Collection.Walk
import DashBeam.Lib.FileTree
import DashBeam.Collection.ExportDirectory
import DashBeam.Lib.Trim
import DashBeam.Protocol.FolderName
import DashBeam.Lib.BaseEncoding
import DashBeam.Protocol.Fingerprint
import DashBeam.Frontend.Fingerprint
import DashBeam.Protocol.PairingTicket
import DashBeam.Protocol.Discovery
import DashBeam.Frontend.NetworkSettings
import DashBeam.Desktop.OpenTarget
import DashBeam.Lib.SortedMap
import DashBeam.Native.NearbyRuns
import DashBeam.Native.PairingWindow
import DashBeam.Protocol.RequestProgress
import DashBeam.Desktop.AndroidUpdate
import DashBeam.Lib.PaddedLex
import DashBeam.Lib.ByteSlice
import DashBeam.Desktop.Logging
import DashBeam.Lib.FileSteps
import DashBeam.Native.IdentityStore
import DashBeam.Native.FailedWrites
import DashBeam.Node.Addressed
import DashBeam.Collection.RoundTrip
import DashBeam.Collection.Exportable
import DashBeam.Collection.WebSave
import DashBeam.Desktop.ShareRow
import DashBeam.Receive.Relaunch
import DashBeam.Frontend.AutoAccept
import DashBeam.Desktop.RollingLog
import DashBeam.Native.IdentityRotation
import DashBeam.Frontend.Sender
