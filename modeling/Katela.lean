import Katela.Foundation.LinkedList
import Katela.Scheduler.Model
import Katela.Scheduler.Queue
import Katela.Scheduler.Invariant
import Katela.Scheduler.Step
import Katela.Scheduler.Representation
import Katela.Scheduler.Mutex
import Katela.Scheduler.Semaphore
import Katela.Scheduler.Condition
import Katela.Scheduler.Timeouts
import Katela.Scheduler.RoundRobin
import Katela.Allocator.Calls
import Katela.Allocator.Runs
import Katela.Crypto.Base64
import Katela.Crypto.Crc32
import Katela.Crypto.Sha1
import Katela.Crypto.PaddedText
import Katela.Crypto.Sha256
import Katela.Drivers.Console
import Katela.Drivers.Nvme
import Katela.Drivers.NvmeCommands
import Katela.Drivers.NvmeTransfer
import Katela.Drivers.ReceiveQueue
import Katela.Drivers.ReceiveRing
import Katela.Filesystem.Accounting
import Katela.Filesystem.Acknowledgement
import Katela.Filesystem.Bundle
import Katela.Filesystem.CacheRuns
import Katela.Filesystem.ChainFree
import Katela.Filesystem.CrashSafety
import Katela.Filesystem.Cursor
import Katela.Filesystem.FormatMount
import Katela.Filesystem.HostileRuns
import Katela.Filesystem.InterruptedFormat
import Katela.Foundation.BackReference
import Katela.Lz4.Blocks
import Katela.Lz4.Decoding
import Katela.Lz4.Encoding
import Katela.Lz4.HighCompression
import Katela.Lz4.Independence
import Katela.Net.AddressText
import Katela.Net.Arp
import Katela.Net.ArpTable
import Katela.Net.Dns
import Katela.Net.DnsAnswers
import Katela.Net.DnsNames
import Katela.Net.Entropy
import Katela.Net.Exchange
import Katela.Net.Matching
import Katela.Recovery.CommandLine
import Katela.Recovery.Install
import Katela.Recovery.Power
import Katela.Shell.Rename
import Katela.Shell.Script
import Katela.Drivers.AtaTransfer
import Katela.Drivers.TransmitRing
import Katela.Processor.Multitasking
import Katela.Processor.UserMode
import Katela.Interrupts.Delivery
import Katela.Recovery.Erase
import Katela.Recovery.Menu
import Katela.Drivers.Keyboard
import Katela.Foundation.Slices
import Katela.Recovery.FactoryImage
import Katela.Recovery.FactoryInstall
import Katela.Shell.Editors
