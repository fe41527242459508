import IotDeviceSdk.Agentlite.DefaultCallback
import IotDeviceSdk.Agentlite.Equiv.Backoff
import IotDeviceSdk.Agentlite.Equiv.FileName
import IotDeviceSdk.Agentlite.Equiv.HeaderFlag
import IotDeviceSdk.Agentlite.Equiv.IotaInit
import IotDeviceSdk.Agentlite.Equiv.IotaPayload
import IotDeviceSdk.Agentlite.Equiv.OtaChunks
import IotDeviceSdk.Agentlite.Equiv.OtaComplete
import IotDeviceSdk.Agentlite.Equiv.OtaResponse
import IotDeviceSdk.Agentlite.Equiv.OtaSign
import IotDeviceSdk.Agentlite.Equiv.PropertiesReport
import IotDeviceSdk.Agentlite.Equiv.UrlData
import IotDeviceSdk.Agentlite.IotaDatatrans
import IotDeviceSdk.Agentlite.IotaInit
import IotDeviceSdk.Agentlite.IotaPayload
import IotDeviceSdk.Agentlite.PackageUrl
import IotDeviceSdk.Agentlite.PropertiesReport
import IotDeviceSdk.Backoff.Basic
import IotDeviceSdk.Base.Base64Decode
import IotDeviceSdk.Base.Equiv.Base64
import IotDeviceSdk.Base.Equiv.Base64Bounds
import IotDeviceSdk.Base.Equiv.EncryptedPassword
import IotDeviceSdk.Base.Equiv.GroupSecret
import IotDeviceSdk.Base.Equiv.HmacSha256
import IotDeviceSdk.Base.Equiv.MqttRun
import IotDeviceSdk.Base.Equiv.Mqttv5
import IotDeviceSdk.Base.Equiv.Password
import IotDeviceSdk.Base.Equiv.TimestampKeys
import IotDeviceSdk.Base.Equiv.TlsOptions
import IotDeviceSdk.Base.HmacSha256
import IotDeviceSdk.Base.MqttBase
import IotDeviceSdk.Base.Mqttv5
import IotDeviceSdk.Base64.Basic
import IotDeviceSdk.CJson.Basic
import IotDeviceSdk.CJson.Children
import IotDeviceSdk.CJson.Duplicate
import IotDeviceSdk.CJson.Env
import IotDeviceSdk.CJson.Equiv.Children
import IotDeviceSdk.CJson.Equiv.ChildrenRun
import IotDeviceSdk.CJson.Equiv.Duplicate
import IotDeviceSdk.CJson.Equiv.Env
import IotDeviceSdk.CJson.Equiv.Grammar
import IotDeviceSdk.CJson.Equiv.Item
import IotDeviceSdk.CJson.Equiv.Parse
import IotDeviceSdk.CJson.Equiv.ParseBuffer
import IotDeviceSdk.CJson.Equiv.ParseComplete
import IotDeviceSdk.CJson.Equiv.ParseString
import IotDeviceSdk.CJson.Equiv.ParseValue
import IotDeviceSdk.CJson.Equiv.Print
import IotDeviceSdk.CJson.Equiv.PrintBuffer
import IotDeviceSdk.CJson.Equiv.PrintNumber
import IotDeviceSdk.CJson.Equiv.PrintString
import IotDeviceSdk.CJson.Equiv.PrintValue
import IotDeviceSdk.CJson.Equiv.Render
import IotDeviceSdk.CJson.Equiv.RoundTrip
import IotDeviceSdk.CJson.Equiv.StringToken
import IotDeviceSdk.CJson.Equiv.Utf8
import IotDeviceSdk.CJson.Grammar
import IotDeviceSdk.CJson.Item
import IotDeviceSdk.CJson.Parse
import IotDeviceSdk.CJson.ParseBuffer
import IotDeviceSdk.CJson.ParseString
import IotDeviceSdk.CJson.Print
import IotDeviceSdk.CJson.PrintBuffer
import IotDeviceSdk.CJson.Render
import IotDeviceSdk.Crypto.Hash
import IotDeviceSdk.DeviceRule.DynamicArray
import IotDeviceSdk.DeviceRule.Equiv.DaysOfWeek
import IotDeviceSdk.DeviceRule.Equiv.DynamicArray
import IotDeviceSdk.DeviceRule.Equiv.MirrorItems
import IotDeviceSdk.DeviceRule.Equiv.MirrorRun
import IotDeviceSdk.DeviceRule.Equiv.RangeCondition
import IotDeviceSdk.DeviceRule.Equiv.RuleCache
import IotDeviceSdk.DeviceRule.Equiv.RuleDetermined
import IotDeviceSdk.DeviceRule.Equiv.RuleExecution
import IotDeviceSdk.DeviceRule.Equiv.RuleFile
import IotDeviceSdk.DeviceRule.Equiv.RuleListFailure
import IotDeviceSdk.DeviceRule.Equiv.RuleLogic
import IotDeviceSdk.DeviceRule.Equiv.RuleManager
import IotDeviceSdk.DeviceRule.Equiv.RuleMerge
import IotDeviceSdk.DeviceRule.Equiv.RuleParser
import IotDeviceSdk.DeviceRule.Equiv.RuleScheduling
import IotDeviceSdk.DeviceRule.Equiv.RuleShadow
import IotDeviceSdk.DeviceRule.Equiv.RuleStore
import IotDeviceSdk.DeviceRule.Equiv.RuleTimers
import IotDeviceSdk.DeviceRule.Equiv.RuleTrans
import IotDeviceSdk.DeviceRule.Equiv.RuleUpdate
import IotDeviceSdk.DeviceRule.Equiv.SimpleTimer
import IotDeviceSdk.DeviceRule.Equiv.TimeText
import IotDeviceSdk.DeviceRule.Equiv.TimerLoop
import IotDeviceSdk.DeviceRule.MirrorItems
import IotDeviceSdk.DeviceRule.RuleExecution
import IotDeviceSdk.DeviceRule.RuleInfo
import IotDeviceSdk.DeviceRule.RuleManager
import IotDeviceSdk.DeviceRule.RuleParser
import IotDeviceSdk.DeviceRule.RuleTrans
import IotDeviceSdk.DeviceRule.RuleUtil
import IotDeviceSdk.DeviceRule.SimpleTimer
import IotDeviceSdk.DeviceRule.TimerLoop
import IotDeviceSdk.Env
import IotDeviceSdk.Forest.Basic
import IotDeviceSdk.Libc.Arith
import IotDeviceSdk.Libc.Bytes
import IotDeviceSdk.Libc.CutNumber
import IotDeviceSdk.Libc.Decimal
import IotDeviceSdk.Libc.DecimalNumber
import IotDeviceSdk.Libc.Double
import IotDeviceSdk.Libc.FormatG
import IotDeviceSdk.Libc.LittleEndian
import IotDeviceSdk.Libc.Magnitude
import IotDeviceSdk.Libc.Memory
import IotDeviceSdk.Libc.Numeral
import IotDeviceSdk.Libc.Scan
import IotDeviceSdk.Libc.Search
import IotDeviceSdk.Libc.StringBlocks
import IotDeviceSdk.Libc.Strings
import IotDeviceSdk.Libc.Strtod
import IotDeviceSdk.Libc.StructArray
import IotDeviceSdk.Libc.Time
import IotDeviceSdk.Links.Basic
import IotDeviceSdk.Prog.Alternates
import IotDeviceSdk.Prog.Basic
import IotDeviceSdk.Prog.ForEach
import IotDeviceSdk.Prog.Run
import IotDeviceSdk.Prog.Settled
import IotDeviceSdk.Prog.Simulates
import IotDeviceSdk.Prog.Slots
import IotDeviceSdk.Prog.Wlp
import IotDeviceSdk.Prog.Wp
import IotDeviceSdk.Ring.Basic
import IotDeviceSdk.Rounding.Basic
import IotDeviceSdk.Service.Base
import IotDeviceSdk.Service.Bridge.BridgeTopicData
import IotDeviceSdk.Service.CallbackFunc.Calls
import IotDeviceSdk.Service.CallbackFunc.Events
import IotDeviceSdk.Service.CallbackFunc.Messages
import IotDeviceSdk.Service.CallbackFunc.OnMessageArrived
import IotDeviceSdk.Service.CallbackFunc.Shadow
import IotDeviceSdk.Service.CallbackFunc.SubDevices
import IotDeviceSdk.Service.DataTrans
import IotDeviceSdk.Service.DetectAnomaly
import IotDeviceSdk.Service.DetectAnomaly.BruteForce
import IotDeviceSdk.Service.DetectAnomaly.Inotify
import IotDeviceSdk.Service.DetectAnomaly.ListDir
import IotDeviceSdk.Service.DetectAnomaly.LocalLogin
import IotDeviceSdk.Service.DetectAnomaly.MaliciousIP
import IotDeviceSdk.Service.Equiv.BridgeTopic
import IotDeviceSdk.Service.Equiv.BruteForce
import IotDeviceSdk.Service.Equiv.DetectAnomaly
import IotDeviceSdk.Service.Equiv.EventErrors
import IotDeviceSdk.Service.Equiv.EventNumbers
import IotDeviceSdk.Service.Equiv.Events
import IotDeviceSdk.Service.Equiv.EventsDefined
import IotDeviceSdk.Service.Equiv.Inotify
import IotDeviceSdk.Service.Equiv.ListDir
import IotDeviceSdk.Service.Equiv.LocalLogin
import IotDeviceSdk.Service.Equiv.MaliciousIP
import IotDeviceSdk.Service.Equiv.NtpTime
import IotDeviceSdk.Service.Equiv.ReportCompressedData
import IotDeviceSdk.Service.Equiv.RequestId
import IotDeviceSdk.Service.Equiv.Shadow
import IotDeviceSdk.Service.Equiv.SoftBus
import IotDeviceSdk.Service.Equiv.SubDeviceSlots
import IotDeviceSdk.Service.Equiv.SubDevices
import IotDeviceSdk.Service.Equiv.TopicDispatch
import IotDeviceSdk.Service.Equiv.UserTopic
import IotDeviceSdk.Service.ReportCompressedData
import IotDeviceSdk.Service.SoftBus
import IotDeviceSdk.Service.Subscribe
import IotDeviceSdk.Text.GappedRuns
import IotDeviceSdk.Text.Runs
import IotDeviceSdk.Text.Search
import IotDeviceSdk.Text.Separated
import IotDeviceSdk.Tunnel.Equiv.UrlInfo
import IotDeviceSdk.Tunnel.Equiv.WssClient
import IotDeviceSdk.Tunnel.UrlInfo
import IotDeviceSdk.Tunnel.WssClient
import IotDeviceSdk.Util.CombineStrings
import IotDeviceSdk.Util.Equiv.CombineStrings
import IotDeviceSdk.Util.Equiv.GZIPCompress
import IotDeviceSdk.Util.Equiv.GetSubStrIndex
import IotDeviceSdk.Util.ErrorType
import IotDeviceSdk.Util.GZIPCompress
import IotDeviceSdk.Util.GetSubStrIndex
import IotDeviceSdk.Util.JsonUtil
import IotDeviceSdk.Util.StringUtil
import IotDeviceSdk.VersionedStore.Basic
import IotDeviceSdk.Windows.Basic
import IotDeviceSdk.Zlib.Basic
import IotDeviceSdk.Zlib.Recording
