import Cjunk.Lib.Run
import Cjunk.Lib.Refinement
import Cjunk.Lib.Routine
import Cjunk.Lib.CountedLoop
import Cjunk.Lib.WhileLoop
import Cjunk.Lib.Words
import Cjunk.Lib.Grouping
import Cjunk.Lib.Printing
import Cjunk.Lib.RingBuffer
import Cjunk.Lib.Segmented
import Cjunk.Lib.OpenFile
import Cjunk.Lib.KeyedTable
import Cjunk.Lib.LabelledTree
import Cjunk.Lib.SearchTree
import Cjunk.Lib.LinkedList
import Cjunk.Lib.SinglyLinked
import Cjunk.Lib.MergePass
import Cjunk.Lib.LinkSort
import Cjunk.Hash.Tag
import Cjunk.Hash.TagMap
import Cjunk.Hash.Uthash
import Cjunk.Hash.Adding
import Cjunk.Hash.TagMemory
import Cjunk.Hash.TagRuns
import Cjunk.Hash.Sorting
import Cjunk.Hash.Fsck
import Cjunk.Hash.OrderedMap
import Cjunk.Plx.Device
import Cjunk.Plx.Dma
import Cjunk.Plx.Ring
import Cjunk.Plx.Interrupt
import Cjunk.Plx.Fops
import Cjunk.Plx.Reading
import Cjunk.Plx.Session
import Cjunk.Plx.LostInterrupts
import Cjunk.Plx.Cursors
import Cjunk.Plx.Delivery
import Cjunk.Plx.Lifecycle
import Cjunk.Plx.Opening
import Cjunk.Plx.Shutdown
import Cjunk.Plx.HandOff
import Cjunk.Plx.Handles
import Cjunk.Plx.CommandLink
import Cjunk.Plx.BoardIo
import Cjunk.Plx.BoardReset
import Cjunk.Plx.BoardTimer
import Cjunk.Plx.Ioctl
import Cjunk.Plx.RegisterCommands
import Cjunk.Plx.EchoedRequest
import Cjunk.Plx.Probe
import Cjunk.Plx.Unplugging
import Cjunk.Plx.Proc
import Cjunk.Plx.Decoders
import Cjunk.Watchdog.ReceiveCmd
import Cjunk.Watchdog.Monitor
import Cjunk.Watchdog.BrokenPeer
import Cjunk.Socket.Socklib
import Cjunk.Configuration.Libconfig
import Cjunk.Configuration.Configuration
import Cjunk.Configuration.Saving
import Cjunk.Configuration.Reading
import Cjunk.Configuration.RoundTrip
import Cjunk.Configuration.Counting
import Cjunk.Configuration.CalibrationFlags
import Cjunk.Configuration.Updating
import Cjunk.Configuration.WriteThrough
import Cjunk.Configuration.Atomicity
import Cjunk.Configuration.Indexing
import Cjunk.Configuration.Buffers
import Cjunk.Configuration.Contents
import Cjunk.Fsm.SystemState
import Cjunk.Threads.FrameRing
import Cjunk.Snmp.Agent
import Cjunk.Snmp.Channels
import Cjunk.Snmp.Requests
import Cjunk.Adapt.Kpi
import Cjunk.Adapt.Convert
import Cjunk.Adapt.HourFiles
import Cjunk.Adapt.Documents
import Cjunk.Adapt.BadProbes
import Cjunk.Adapt.FailureTraps
import Cjunk.Unscramble.Unscrambla
import Cjunk.Unscramble.Bijection
import Cjunk.Matrix.Multiply
import Cjunk.LinkedList.GenList
import Cjunk.LinkedList.Utlist
import Cjunk.LinkedList.ListSort
import Cjunk.LinkedList.NumberList
import Cjunk.LinkedList.Listing
import Cjunk.LinkedList.DoubleLinked
import Cjunk.LinkedList.NameList
import Cjunk.LinkedList.CircularList
import Cjunk.LinkedList.Places
import Cjunk.BinarySearchTree.Bstree
import Cjunk.Tdd.Tdd
