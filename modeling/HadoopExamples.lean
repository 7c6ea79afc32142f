import HadoopExamples.TotalOrder.ProcessLogs
import HadoopExamples.WordCount.MapReduce
import HadoopExamples.WordCount.Hive
import HadoopExamples.Hive.IncrementalInsert
import HadoopExamples.Kafka.SimpleConsumer
import HadoopExamples.HBase.TruncateTable
import HadoopExamples.ClouderaManager.DumpConfig
import HadoopExamples.Spark.HdfsPartitions
import HadoopExamples.Spark.ExplodeFoods
import HadoopExamples.SqlDiffs.Queries
import HadoopExamples.TotalOrder.TextOutput
import HadoopExamples.YarnContainers.SleepJobWithArray
import HadoopExamples.Library.KeyedStore
import HadoopExamples.Platform.HBase
import HadoopExamples.HBase.HotSpots
import HadoopExamples.HBase.PutRandomRecords
import HadoopExamples.HBase.Blast
import HadoopExamples.KillJobFromMapper.KillMapper
import HadoopExamples.Platform.Perl
import HadoopExamples.StreamingConfigDumper.Reducer
import HadoopExamples.Library.Hoare
import HadoopExamples.Platform.Thrift
import HadoopExamples.HBase.DataImporter
import HadoopExamples.HBase.RandomWords
import HadoopExamples.YarnContainers.RunSleepJob
import HadoopExamples.HBase.HotSpotKeys
import HadoopExamples.Platform.Spark
import HadoopExamples.Spark.TfIdf
import HadoopExamples.Library.Regex
import HadoopExamples.Platform.Scala
import HadoopExamples.Spark.DataParsing
import HadoopExamples.Spark.WordlengthWithDetails
import HadoopExamples.WordCount.Compare
import HadoopExamples.SimpleQueries.SubqueryInWhere
import HadoopExamples.Avro.RoundTrip
import HadoopExamples.Avro.RecordResolution
import HadoopExamples.Avro.DataFileReader
import HadoopExamples.Avro.Twisted
import HadoopExamples.Avro.HandshakeRuns
import HadoopExamples.Avro.Users
import HadoopExamples.Avro.WriterOutcomes
import HadoopExamples.Avro.Calls
