import Mathlib.Data.Int.Notation

/-!
# `iota_error_type.h`

The results the code returns.
-/

namespace IotDeviceSdk

def IOTA_SUCCESS : ℤ := 0
def IOTA_FAILURE : ℤ := -1
def IOTA_PARAMETER_EMPTY : ℤ := -101
def IOTA_RESOURCE_NOT_AVAILABLE : ℤ := -102
def IOTA_INITIALIZATION_REPEATED : ℤ := -103
def IOTA_SECRET_ENCRYPT_FAILED : ℤ := -105
def IOTA_MQTT_CONNECT_FAILED : ℤ := -106
def IOTA_CERTIFICATE_NOT_FOUND : ℤ := -108
def IOTA_MQTT_DISCONNECT_FAILED : ℤ := -109
def IOTA_PARAMETER_ERROR : ℤ := -111

end IotDeviceSdk
