import ZephyrBluetooth.Mesh.ReplayIv
import ZephyrBluetooth.Mesh.PbAdvBuffer
import ZephyrBluetooth.Mesh.PbAdvRoundTrip
import ZephyrBluetooth.Mesh.CfgStore
import ZephyrBluetooth.Mesh.KeyStoreOk
import ZephyrBluetooth.Mesh.KeyRefresh
import ZephyrBluetooth.Mesh.FriendDelivery
import ZephyrBluetooth.Mesh.FriendCount
import ZephyrBluetooth.Mesh.FriendCapacity
import ZephyrBluetooth.Mesh.FriendMessages
import ZephyrBluetooth.Mesh.SegIv
import ZephyrBluetooth.Mesh.FriendSubs
import ZephyrBluetooth.Mesh.NetRoundTrip
import ZephyrBluetooth.Host.L2capCids
import ZephyrBluetooth.Host.L2capResponses
import ZephyrBluetooth.Host.L2capSduDelivery
import ZephyrBluetooth.Host.GattWriteExact
import ZephyrBluetooth.Osal.Queue
import ZephyrBluetooth.Osal.Work
import ZephyrBluetooth.Host.CccRefused
import ZephyrBluetooth.Host.EarlyDisconnect
import ZephyrBluetooth.Host.AclRecv
import ZephyrBluetooth.Host.DbHash
import ZephyrBluetooth.Host.Subscriptions
import ZephyrBluetooth.Host.AttMatch
import ZephyrBluetooth.Host.RobustCaching
import ZephyrBluetooth.Host.ServiceChangedKept
import ZephyrBluetooth.Host.SignedWrites
import ZephyrBluetooth.Host.SmpDhKey
import ZephyrBluetooth.Host.ConnTxBalance
import ZephyrBluetooth.Host.RfcommLifecycle
import ZephyrBluetooth.Mesh.SegBufs
import ZephyrBluetooth.Mesh.SegPending
import ZephyrBluetooth.Mesh.CdbAddrs
import ZephyrBluetooth.Mesh.CdbSurvives
import ZephyrBluetooth.Mesh.Heartbeat
import ZephyrBluetooth.Mesh.FriendClear
import ZephyrBluetooth.Mesh.ProxyMsg
import ZephyrBluetooth.Mesh.LpnGroups
import ZephyrBluetooth.Mesh.BeaconAuth
import ZephyrBluetooth.Host.L2capStarve
import ZephyrBluetooth.Host.L2capKframes
import ZephyrBluetooth.Host.L2capSignal
import ZephyrBluetooth.Services.OtsTransfer
import ZephyrBluetooth.Host.GattParse
import ZephyrBluetooth.Host.GattCancel
import ZephyrBluetooth.Host.GattNotify
import ZephyrBluetooth.Host.GattDescriptors
import ZephyrBluetooth.Host.AttSendKept
import ZephyrBluetooth.Host.GattRecords
import ZephyrBluetooth.Host.NetBufChain
import ZephyrBluetooth.Host.AesCcm
