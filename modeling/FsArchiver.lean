import FsArchiver.Lib.Transition
import FsArchiver.Lib.Bytes
import FsArchiver.Const
import FsArchiver.Dico
import FsArchiver.Lib.Relay
import FsArchiver.Lib.Trace
import FsArchiver.Queue
import FsArchiver.QueueCalls
import FsArchiver.Writebuf
import FsArchiver.ArchReader
import FsArchiver.ThreadArchio
import FsArchiver.Records
import FsArchiver.Volumes
import FsArchiver.Splitting
import FsArchiver.VolumeSizes
import FsArchiver.Lib.Failing
import FsArchiver.ArchFiles
import FsArchiver.FilesOfVolumes
import FsArchiver.Resync
import FsArchiver.Damage
import FsArchiver.DamagedBlock
import FsArchiver.Datafile
import FsArchiver.Regmulti
import FsArchiver.OperSave
import FsArchiver.OperRestore
import FsArchiver.RestoreCalls
import FsArchiver.RestoreCalm
import FsArchiver.RestoreFiles
import FsArchiver.RestoreChecked
import FsArchiver.ExcludedCalls
import FsArchiver.Lib.Places
import FsArchiver.PathsInside
import FsArchiver.SysCalls
import FsArchiver.Pipeline
import FsArchiver.PipelineInv
import FsArchiver.PipelineRuns
import FsArchiver.Shutdown
import FsArchiver.SaveWalk
import FsArchiver.SaveHeaders
import FsArchiver.SavePackets
import FsArchiver.ObjectHeaders
import FsArchiver.Excludes
import FsArchiver.Lib.FirstSeen
import FsArchiver.Hardlinks
import FsArchiver.LinkTargets
import FsArchiver.SavedHeaders
import FsArchiver.Metadata
import FsArchiver.RestoreObjects
import FsArchiver.RestorePackets
import FsArchiver.RestorePacks
import FsArchiver.SavedParts
import FsArchiver.RestoreRuns
import FsArchiver.SavedOrder
import FsArchiver.SaveRestore
import FsArchiver.RestoreUnfooted
import FsArchiver.RestoreLosses
import FsArchiver.SwallowedParts
import FsArchiver.CutFiles
import FsArchiver.LostItems
import FsArchiver.ExcludedCounts
import FsArchiver.QueueLimit
import FsArchiver.Comp
import FsArchiver.ThreadComp
import FsArchiver.BlockBuffers
import FsArchiver.Fletcher
import FsArchiver.ChangedByte
import FsArchiver.DirTimes
import FsArchiver.DirTimesKept
import FsArchiver.WriterThread
import FsArchiver.SelfArchive
import FsArchiver.SaveThreads
import FsArchiver.HeaderBounds
import FsArchiver.PackBounds
import FsArchiver.ReaderRuns
import FsArchiver.BitmapIndexes
import FsArchiver.SparseFiles
import FsArchiver.Xattrs
import FsArchiver.MountInfo
import FsArchiver.HeaderCodec
import FsArchiver.SaveErrors
import FsArchiver.QueuedObjects
import FsArchiver.SaveTrees
import FsArchiver.SaveLosses
import FsArchiver.MagicSearch
import FsArchiver.FailedSaves
import FsArchiver.VolumePaths
import FsArchiver.TextLines
import FsArchiver.Lib.Memory
import FsArchiver.JoinedPaths
import FsArchiver.DicoMalloc
import FsArchiver.Strdico
import FsArchiver.CommandLine
import FsArchiver.Lib.Masks
import FsArchiver.Mkfs
import FsArchiver.FsExt2
import FsArchiver.ExtFeatures
import FsArchiver.Lib.WordExpansion
import FsArchiver.FsXfs
import FsArchiver.FsBtrfs
import FsArchiver.MkfsLabels
import FsArchiver.BtrfsAttributes
import FsArchiver.SelectedItems
import FsArchiver.MainHeader
import FsArchiver.RestoreArchive
import FsArchiver.RemadeObjects
import FsArchiver.SavedArchive
import FsArchiver.SelectiveRestore
import FsArchiver.Lib.Erasure
import FsArchiver.PlainBlocks
import FsArchiver.CarriedItems
import FsArchiver.StoredItems
import FsArchiver.SavedDirectories
import FsArchiver.RoundTrips
import FsArchiver.ArchiveRoundTrip
import FsArchiver.Lib.Progress
import FsArchiver.PipelineProgress
import FsArchiver.DirectoriesRoundTrip
import FsArchiver.FsGetinfo
import FsArchiver.MountPartition
import FsArchiver.FilesystemHeaders
import FsArchiver.XfsAttributes
