import PsipSwitch.LoopSuppression
import PsipSwitch.AdminDown
import PsipSwitch.Classification
import PsipSwitch.MacTimeout
import PsipSwitch.Stations
import PsipSwitch.Echoes
import PsipSwitch.Shutdown
import PsipSwitch.FailedStart
import PsipSwitch.SessionLedger
import PsipSwitch.RestErrors
import PsipSwitch.StoredStrings
import PsipSwitch.InterfaceViews
import PsipSwitch.ExpirySweeps
import PsipSwitch.CounterRange
import PsipSwitch.TableModels
import PsipSwitch.WindowEvents
import PsipSwitch.StatisticsWindows
import PsipSwitch.TrafficIndependence
import PsipSwitch.WindowBridging
import PsipSwitch.Tokens
import PsipSwitch.Sniffing
import PsipSwitch.Conversations
import PsipSwitch.Atomicity
