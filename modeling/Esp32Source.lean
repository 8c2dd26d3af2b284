import Esp32Source.Memory.Region
import Esp32Source.Memory.CString
import Esp32Source.Memory.Register
import Esp32Source.Memory.Strtok
import Esp32Source.Memory.Word
import Esp32Source.Memory.Heap
import Esp32Source.Machine.History
import Esp32Source.Machine.Registers
import Esp32Source.Wifi.Config
import Esp32Source.Ebbchar.Driver
import Esp32Source.Ebbchar.Message
import Esp32Source.Ebbchar.Led
import Esp32Source.UdpServer.Storage
import Esp32Source.UdpServer.Task
import Esp32Source.UdpServer.Provisioning
import Esp32Source.Blufi.Event
import Esp32Source.Blufi.Configuration
import Esp32Source.Blufi.ConfigFields
import Esp32Source.Blufi.Station
import Esp32Source.Blufi.Link
import Esp32Source.Blufi.Security
import Esp32Source.Blufi.Ownership
import Esp32Source.Blufi.Textbook
import Esp32Source.Blufi.Lifetime
import Esp32Source.Blufi.Keying
import Esp32Source.UdpServerOriginal.Boot
import Esp32Source.UdpServer.Lines
import Esp32Source.UdpServerOriginal.RoundTrip
import Esp32Source.UdpServerOriginal.Restart
import Esp32Source.Ipc.Conservation
import Esp32Source.Ebbchar.Module
import Esp32Source.Ebbchar.Resources
import Esp32Source.Ebbchar.Unload
import Esp32Source.Machine.Fifo
import Esp32Source.Memory.Ring
import Esp32Source.Uart.SwSerial
import Esp32Source.Uart.ReceiveQueue
import Esp32Source.Cipher.Aes
import Esp32Source.Cipher.Feedback
import Esp32Source.Blufi.InitialVector
import Esp32Source.Blufi.Packets
import Esp32Source.UdpServer.Http
import Esp32Source.UdpServer.ResponseText
import Esp32Source.UdpServer.Datagram
import Esp32Source.Ebbchar.Pins
import Esp32Source.Ebbchar.Bounds
import Esp32Source.UdpServer.Echo
import Esp32Source.UdpServer.ResponseBlock
import Esp32Source.Blufi.MessageBounds
import Esp32Source.Blufi.PrimeSize
import Esp32Source.Uart.Line
import Esp32Source.Uart.EchoTask
import Esp32Source.Memory.Decimal
import Esp32Source.Memory.Stdio
import Esp32Source.ReadTherm.Sensor
import Esp32Source.ReadTherm.Temperature
import Esp32Source.ReadTherm.Bounds
import Esp32Source.ReadTherm.Folders
import Esp32Source.Machine.Window
import Esp32Source.ReadFile.Console
import Esp32Source.ReadTherm.Polling
import Esp32Source.ReadFile.Rows
import Esp32Source.Ipc.Threads
import Esp32Source.Machine.Counter
import Esp32Source.Machine.Refinement
import Esp32Source.Machine.Linearization
import Esp32Source.Ebbchar.Interleaving
import Esp32Source.Memory.HeapArray
import Esp32Source.Uart.Timing
import Esp32Source.Uart.Application
import Esp32Source.Machine.Requests
import Esp32Source.Uart.Link
import Esp32Source.Blufi.Agreement
import Esp32Source.Blufi.ScanList
import Esp32Source.UdpServerOriginal.Lifetime
import Esp32Source.UdpServerOld.Device
import Esp32Source.UdpServerOld.Provision
import Esp32Source.UdpServerOld.AccessPoint
import Esp32Source.Timer.Alarm
import Esp32Source.X86.Instruction
import Esp32Source.X86.Assembler
import Esp32Source.X86.Processor
import Esp32Source.LearnAsm.BootSector
import Esp32Source.LearnAsm.BootRun
import Esp32Source.Memory.LiveBlocks
import Esp32Source.ReadTherm.Program
import Esp32Source.Uart.EchoRun
import Esp32Source.UdpServerOriginal.Outage
