import Procpool.Atomic
import Procpool.Hive.Counter
import Procpool.Hive.Task
import Procpool.Hive.Retry
import Procpool.Hive.Shared
import Procpool.Hive.Admission
import Procpool.Hive.System
import Procpool.Hive.Counting
import Procpool.Hive.Husk
import Procpool.Hive.Gates
import Procpool.Hive.NextRetry
import Procpool.Hive.Indexing
import Procpool.Hive.Conservation
import Procpool.Hive.Stopping
import Procpool.Hive.Attempts
import Procpool.Hive.Panics
