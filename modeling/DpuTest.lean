import DpuTest.Lib.LittleEndian
import DpuTest.Lib.Buffer
import DpuTest.Lib.Chunking
import DpuTest.Lib.Loop
import DpuTest.Sha.Gear
import DpuTest.Sha.FastCdc
import DpuTest.Sha.ChunkLoop
import DpuTest.ReadBench.Format
import DpuTest.ReadBench.Libraries
import DpuTest.ReadBench.Names
import DpuTest.ReadBench.WriteChunk
import DpuTest.Lib.Latch
import DpuTest.ReadBench.DocaDecompress
import DpuTest.ReadBench.ReadMethod
import DpuTest.ReadBench.RoundTrip
import DpuTest.ReadBench.PackZlibFrames
import DpuTest.ReadBench.LocalDecompress
import DpuTest.ReadBench.Dataset
import DpuTest.ReadBench.DatasetSpec
import DpuTest.ReadBench.ReadPass
import DpuTest.ReadBench.History
import DpuTest.Lib.Engine
import DpuTest.EcEncode.DpuProxy
import DpuTest.EcEncode.Single
import DpuTest.EcEncode.Batch
import DpuTest.EcEncode.BatchOffsets
import DpuTest.EcEncode.DpuEncodeBatch
import DpuTest.Sha.Batching
import DpuTest.ReadBench.Grammar
import DpuTest.EcDecode.DecodeBench
import DpuTest.Lib.Run
import DpuTest.ReadBench.MethodAgreement
import DpuTest.EcDecode.Pipeline
import DpuTest.EcDecode.PipelineRuns
import DpuTest.Doca
import DpuTest.EcDecode.RecoverInput
import DpuTest.EcDecode.VerifyCase
import DpuTest.EcDecode.StaleBytes
import DpuTest.EcDecode.ComparedBlocks
import DpuTest.Lib.Trace
import DpuTest.EcDecode.TaskWait
import DpuTest.Lib.StopLatch
import DpuTest.Compress.Callbacks
import DpuTest.Compress.WaitLoop
import DpuTest.Compress.FileReads
import DpuTest.Compress.Test3
import DpuTest.Compress.CompressFile
import DpuTest.Compress.ReadErrors
import DpuTest.Compress.SubmitOne
import DpuTest.ReadBench.TaskLifecycle
import DpuTest.Sha.HashStatus
import DpuTest.EcEncode.ProxyWait
import DpuTest.EcDecode.BatchCopy
import DpuTest.EcDecode.RecoverTasks
import DpuTest.EcDecode.ParseArgs
import DpuTest.ReadBench.LocalFiles
import DpuTest.ReadBench.OutputNames
import DpuTest.Lib.KeyedStore
import DpuTest.Lib.ObjectStore
import DpuTest.Lib.FileTree
import DpuTest.CephBuild.CompressReadBench
import DpuTest.Lib.Blocks
import DpuTest.Lib.Strto
import DpuTest.Lib.CInt
import DpuTest.Dma.DmaCopyDpu
import DpuTest.CephCompress.ZStream
import DpuTest.CephCompress.SampleZlib
import DpuTest.CephCompress.Decompressors
import DpuTest.CephCompress.ObjectWrite
import DpuTest.CephCompress.RecoverTime
import DpuTest.ReadBench.Accesses
import DpuTest.ReadBench.Accounting
import DpuTest.Lib.ShiftXor
import DpuTest.Lib.RollingSum
import DpuTest.Sha.WindowedCut
import DpuTest.EcDecode.FillDeterministic
import DpuTest.EcDecode.TestCpu
import DpuTest.Lib.Double
import DpuTest.SizeConvert
import DpuTest.Dma.HandOver
import DpuTest.Lib.Ledger
import DpuTest.Compress.Resources
import DpuTest.ReadBench.DecompressorLifetime
import DpuTest.Lib.CountedLoop
import DpuTest.ReadBench.Bench
import DpuTest.ReadBench.BenchRuns
import DpuTest.ReadBench.FileList
import DpuTest.ReadBench.Main
import DpuTest.ReadBench.RadosCli
import DpuTest.ReadBench.RadosCliRounds
import DpuTest.EcDecode.BatchNoCopy
import DpuTest.EcDecode.PipelineOutcomes
import DpuTest.Lib.PqCode
import DpuTest.EcDecode.CompareOptions
import DpuTest.EcDecode.CpuCase
import DpuTest.EcDecode.CorrectDevices
import DpuTest.EcDecode.CompareMain
import DpuTest.Dma.DpuBuffer
import DpuTest.Dma.HostAndDpu
import DpuTest.Lib.PathWalk
import DpuTest.Compress.BenchTotals
import DpuTest.Compress.BenchMain
import DpuTest.EcEncode.HashProxy
import DpuTest.CephCompress.ObjectWriteMain
import DpuTest.CephBuild.PoolBench
