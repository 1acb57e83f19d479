import BLEBridge.Commit
import BLEBridge.PowerLoss
import BLEBridge.Update
import BLEBridge.Confinement
import BLEBridge.Lib.Text
import BLEBridge.Lib.Ini
import BLEBridge.MiniIni
import BLEBridge.Config
import BLEBridge.ConfigFile
import BLEBridge.ConfigSave
import BLEBridge.Canonical
import BLEBridge.ConfigDocument
import BLEBridge.ConfigRoundTrip
import BLEBridge.Storage
import BLEBridge.BlockAccess
import BLEBridge.Lib.Retain
import BLEBridge.MeasurementStore
import BLEBridge.MeasurementTable
import BLEBridge.Lib.Runs
import BLEBridge.MeasurementRun
import BLEBridge.Retention
import BLEBridge.Eviction
import BLEBridge.Lib.EarlyReturn
import BLEBridge.AppMqtt
import BLEBridge.MqttRun
import BLEBridge.MqttConnect
import BLEBridge.MqttPublish
import BLEBridge.Lib.Ring
import BLEBridge.OneWireBus
import BLEBridge.Lib.BitOrder
import BLEBridge.OneWireCrc
import BLEBridge.OneWireSearch
import BLEBridge.OneWireEnumeration
import BLEBridge.OneWireWorker
import BLEBridge.OneWireSource
import BLEBridge.OneWireProtocol
import BLEBridge.AppWeb
import BLEBridge.AppWebUpload
import BLEBridge.AppWebSuccess
import BLEBridge.AppWebForeign
import BLEBridge.StorageArray
import BLEBridge.Lib.Slots
import BLEBridge.MeasurementView
import BLEBridge.Lib.Hex
import BLEBridge.BleScanner
import BLEBridge.BleDeviceTable
import BLEBridge.Bthome
import BLEBridge.BthomeDecoding
import BLEBridge.BleTracked
import BLEBridge.Lib.Fixed
import BLEBridge.NarodmonPayload
import BLEBridge.NarodmonLoops
import BLEBridge.NarodmonComplete
import BLEBridge.AppNarodmon
import BLEBridge.NarodmonDelivery
import BLEBridge.Lib.Rotation
import BLEBridge.AppLog
import BLEBridge.AppWebLogs
import BLEBridge.LogRetention
import BLEBridge.AppWebCgi
import BLEBridge.DeviceName
import BLEBridge.ValidConfig
import BLEBridge.RuntimeConfig
import BLEBridge.SettingsReload
import BLEBridge.Lib.InPlace
import BLEBridge.UrlDecoding
import BLEBridge.SettingsText
import BLEBridge.Lib.Json
import BLEBridge.JsonEscape
import BLEBridge.TableListings
import BLEBridge.IniTermination
import BLEBridge.IniGrammar
import BLEBridge.DeviceNameCopy
import BLEBridge.ConfigLists
import BLEBridge.MacTexts
import BLEBridge.Lib.Backoff
import BLEBridge.MqttBackoff
import BLEBridge.Lib.Burst
import BLEBridge.UpdateChecksum
import BLEBridge.OneWireResidue
import BLEBridge.QueryNumbers
import BLEBridge.Lib.SlotMap
import BLEBridge.AppBtstackTlv
import BLEBridge.OneWireQueue
import BLEBridge.Lib.Datagram
import BLEBridge.Lib.Tlv
import BLEBridge.DhcpServer
import BLEBridge.DhcpReply
import BLEBridge.DhcpMessage
import BLEBridge.DhcpLease
import BLEBridge.DnsServer
import BLEBridge.DnsReply
import BLEBridge.Lib.Effects
import BLEBridge.FlashWriters
import BLEBridge.FlashLifetime
import BLEBridge.UploadedFirmware
import BLEBridge.WebPages
