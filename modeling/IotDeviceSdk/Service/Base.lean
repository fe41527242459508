/-!
# `base.h`

The topics of the platform.
-/

namespace IotDeviceSdk.Service

def TOPIC_PREFIX : String := "$oc/devices/"
def TOPIC_SUFFIX_USER : String := "/user/"
def TOPIC_SUFFIX_MESSAGEDOWN : String := "/sys/messages/down"
def TOPIC_SUFFIX_COMMAND : String := "/sys/commands/"
def TOPIC_SUFFIX_COMMAND_RSP_REQ : String := "/sys/commands/response/request_id="
def TOPIC_SUFFIX_PROP_SET : String := "/sys/properties/set/"
def TOPIC_SUFFIX_PROP_GET : String := "/sys/properties/get/"
def TOPIC_SUFFIX_PROP_SET_RSP_REQ : String := "/sys/properties/set/response/request_id="
def TOPIC_SUFFIX_PROP_GET_RSP_REQ : String := "/sys/properties/get/response/request_id="
def TOPIC_SUFFIX_PROP_RSP : String := "/sys/shadow/get/response/"
def TOPIC_SUFFIX_EVENT_DOWN : String := "/sys/events/down"
def TOPIC_PREFIX_V3 : String := "/huawei/v1/devices/"
def CLOUD_REQ : String := "cloudReq"
def BOOTSTRAP_DOWN : String := "/sys/bootstrap/down"
def TOPIC_PREFIX_M2M : String := "$oc/m2m/to/"

/-! ### Bridges -/

def TOPIC_PREFIX_BRIDGE : String := "$oc/bridges/"
def TOPIC_SUFFIX_SYS : String := "/sys/"
def TOPIC_SUFFIX_LOGIN : String := "/sys/login/response/request_id="
def TOPIC_SUFFIX_LOGOUT : String := "/sys/logout/response/request_id="
def TOPIC_SUFFIX_RESET_SECRET : String := "/sys/reset_secret/response/request_id="
def TOPIC_SUFFIX_DISCONNECT : String := "/sys/disconnect"
def TOPIC_SUFFIX_DEVICES : String := "/devices/"

end IotDeviceSdk.Service
