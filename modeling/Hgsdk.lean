import Hgsdk.Common.Machine
import Hgsdk.Common.Circular
import Hgsdk.Common.Word
import Hgsdk.Rbuffer.Model
import Hgsdk.Rbuffer.Fifo
import Hgsdk.Uart.Model
import Hgsdk.Uart.Strand
import Hgsdk.Common.Command
import Hgsdk.EthPhy.Model.Mii
import Hgsdk.EthPhy.Model.Device
import Hgsdk.EthPhy.Model.Poll
import Hgsdk.EthPhy.Frame
import Hgsdk.EthPhy.LinkReports
import Hgsdk.Common.Overlay
import Hgsdk.SpiNor.Model.Bus
import Hgsdk.SpiNor.Model.Flash
import Hgsdk.SpiNor.Model.Chip
import Hgsdk.SpiNor.Commands
import Hgsdk.SpiNor.RoundTrip
import Hgsdk.SpiNor.WireMode
import Hgsdk.Common.Memory
import Hgsdk.SleepData.Model
import Hgsdk.Common.Arena
import Hgsdk.SleepData.Header
import Hgsdk.SleepData.Sound
import Hgsdk.Common.Ring
import Hgsdk.Dev.Model
import Hgsdk.Dev.Registry
import Hgsdk.Dev.Tasks
import Hgsdk.Dev.Unique
import Hgsdk.Common.RecMutex
import Hgsdk.Crc.Model
import Hgsdk.Crc.Balance
import Hgsdk.Crc.Own
import Hgsdk.SpiNor.Busy
import Hgsdk.SpiNor.Tasks
import Hgsdk.SpiNor.Lock
import Hgsdk.Dmac.Model
import Hgsdk.Dmac.Threads
import Hgsdk.Dmac.Exclusive
import Hgsdk.Dmac.Refused
import Hgsdk.Dmac.Engine
import Hgsdk.Serial.Model
import Hgsdk.Serial.Sending
import Hgsdk.Serial.Receiving
import Hgsdk.Serial.SameData
import Hgsdk.Serial.Tasks
import Hgsdk.Serial.InFlight
import Hgsdk.Serial.Waits
import Hgsdk.Net.Frame
import Hgsdk.Net.Parse
import Hgsdk.Common.OnesComplement
import Hgsdk.Net.Checksum
import Hgsdk.Combi.Model
import Hgsdk.Combi.Route
import Hgsdk.Combi.Rules
import Hgsdk.MacBus.Model
import Hgsdk.MacBus.Accounting
import Hgsdk.MacBus.Buffers
import Hgsdk.DriverCmd.Model
import Hgsdk.DriverCmd.Table
import Hgsdk.DriverCmd.Dispatch
import Hgsdk.Ethernetif.Input
import Hgsdk.Ethernetif.Output
import Hgsdk.Common.Copies
import Hgsdk.M2mDma.Model
import Hgsdk.M2mDma.Channels
import Hgsdk.M2mDma.Plain
import Hgsdk.Common.Field
import Hgsdk.Gpio.Model
import Hgsdk.Gpio.Atomic
import Hgsdk.Gpio.Pull
import Hgsdk.EthPhy.Unseen
import Hgsdk.EthPhy.Retries
import Hgsdk.EthPhy.BusErrors
import Hgsdk.DsleepTest.Handshake
import Hgsdk.Timer.Model
import Hgsdk.Timer.Period
import Hgsdk.Timer.Restart
import Hgsdk.Wdt.Model
import Hgsdk.Wdt.Period
import Hgsdk.I2c.Model
import Hgsdk.I2c.Write
import Hgsdk.StrCase.Fold
import Hgsdk.Net.Zero
import Hgsdk.EthPhy.Aneg
import Hgsdk.EthPhy.Modes
import Hgsdk.EthPhy.Search
import Hgsdk.SpiDw.Model
import Hgsdk.SpiDw.Open
import Hgsdk.SleepData.Free
import Hgsdk.Hex.Decode
import Hgsdk.DsleepTest.Buffer
import Hgsdk.Jiffies.CpuLoading
import Hgsdk.Jiffies.Waits
import Hgsdk.Rbuffer.Overwrite
import Hgsdk.Combi.Learned
import Hgsdk.Net.Chain
import Hgsdk.Hex.Atoh
import Hgsdk.Common.Block
import Hgsdk.Sysvar.Clearing
import Hgsdk.DsleepTest.Message
import Hgsdk.Common.Inherit
import Hgsdk.Common.Insert
import Hgsdk.Rhino.Calls
import Hgsdk.Rhino.Inheritance
import Hgsdk.Rhino.Invariant
import Hgsdk.Rhino.Kernel
import Hgsdk.Rhino.Ownership
import Hgsdk.Rhino.Sleep
import Hgsdk.Rhino.Tokens
