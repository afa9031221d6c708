import ControlBoard.ConcurrentJoin
import ControlBoard.ConfigText
import ControlBoard.HeapRuns
import ControlBoard.LateReply
import ControlBoard.ModbusFull
import ControlBoard.ModbusStart
import ControlBoard.PortClaim
import ControlBoard.QueryReply
import ControlBoard.RespBalance
import ControlBoard.SaveNodeInfo
import ControlBoard.SendBlock
import ControlBoard.SendBounds
import ControlBoard.SendEncoding
import ControlBoard.SendOnce
import ControlBoard.SendPayload
import ControlBoard.SensorName
import ControlBoard.SensorTable
import ControlBoard.SensorThread
import ControlBoard.SensorUpdate
import ControlBoard.StatueBuffer
import ControlBoard.StatueReply
import ControlBoard.UploadCycle
