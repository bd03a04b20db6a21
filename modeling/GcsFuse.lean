import GcsFuse.Common.ElementList
import GcsFuse.Lru.Cache
import GcsFuse.Common.Run
import GcsFuse.Lru.Shape
import GcsFuse.Lru.Wf
import GcsFuse.Data.FileInfo
import GcsFuse.FileCache.Sparse
import GcsFuse.Gcsx.MrdInstance
import GcsFuse.Common.Runs
import GcsFuse.Downloader.ParallelJob
import GcsFuse.Downloader.RangeMapSpec
import GcsFuse.Gcs.FakeBucket
import GcsFuse.Gcsx.PrefixBucket
import GcsFuse.Downloader.Job
import GcsFuse.Downloader.JobInvariants
import GcsFuse.FileCache.Handler
import GcsFuse.Gcsx.RangeReader
import GcsFuse.Gcsx.RangeReaderSpec
import GcsFuse.Block.Pool
import GcsFuse.BufferedRead.Reader
import GcsFuse.BufferedRead.Custody
import GcsFuse.BufferedRead.Loop
import GcsFuse.BufferedRead.Run
import GcsFuse.BufferedRead.Contract
import GcsFuse.BufferedWrite.Handler
import GcsFuse.BufferedWrite.Custody
import GcsFuse.BufferedWrite.Spec
import GcsFuse.BufferedWrite.Refinement
import GcsFuse.BufferedWrite.Contract
import GcsFuse.Fs.Invalidate
import GcsFuse.Fs.RenameDir
import GcsFuse.Caching.FastStatBucket
import GcsFuse.Caching.ListingRace
import GcsFuse.Fs.Inodes
import GcsFuse.Fs.Handlers
import GcsFuse.Common.ByteFile
import GcsFuse.Inode.File
import GcsFuse.Inode.TempFile
import GcsFuse.Lru.Insert
import GcsFuse.Common.Chunks
import GcsFuse.Data.ByteRangeMap
import GcsFuse.Block.Permits
import GcsFuse.Downloader.SequentialJob
import GcsFuse.Gcsx.SharedChunkCache
import GcsFuse.Inode.LookUp
import GcsFuse.Common.GoSort
import GcsFuse.SccGc.Main
import GcsFuse.SccGc.Spec
import GcsFuse.Common.LengthPrefix
import GcsFuse.FileCache.SharedChunkCacheManager
import GcsFuse.FileCache.SharedStore
import GcsFuse.Common.ReadBack
import GcsFuse.FileCache.SharedChunkFiles
import GcsFuse.Gcs.Generations
import GcsFuse.Gcsx.ComposeObjectCreator
import GcsFuse.Common.ListSeg
import GcsFuse.Queue.LinkedListQueue
import GcsFuse.Gcsx.MrdInstanceSafety
import GcsFuse.Cfg.Config
import GcsFuse.Cfg.Mount
