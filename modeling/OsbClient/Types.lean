import OsbClient.Json.Decode

/-!
# The messages of a binding rotation

The user-facing types of `client.go` that `RotateBinding` reads or returns, with the field
names their JSON tags give them, and the internal body types of `rotate_binding.go`. Each
struct comes with its decoder, a list of `OsbClient.Json.StructField`s in the order of the Go
declaration; a field without a tag (`Endpoint.Protocol`) is named by its Go name, as
`encoding/json` does.

`bindSuccessResponseBody`, the shape the accepted (`202`) response is decoded into, is used by
`rotate_binding.go` but declared in a file that is not in the repository's sources here. Its
fields are forced by `RotateBinding`, which copies each into the field of the same name and
type of `BindResponse`; their JSON names are the ones the Open Service Broker API gives the
members of a binding response, which are `BindResponse`'s tags.
-/

namespace OsbClient

open Json

/-- `OriginatingIdentity`: the platform a request comes from, and the user on it as a JSON
text. -/
structure OriginatingIdentity where
  platform : GoString
  value : GoString

/-- `RotateBindingRequest`. -/
structure RotateBindingRequest where
  instanceID : GoString
  bindingID : GoString
  acceptsIncomplete : Bool
  predecessorBindingID : GoString
  originatingIdentity : Option OriginatingIdentity

/-- `Endpoint`, an alpha feature. -/
structure Endpoint where
  host : GoString := []
  ports : List UInt16 := []
  protocol : Option GoString := none

/-- `VolumeMountDevice`. -/
structure VolumeMountDevice where
  volumeID : Option GoString := none
  mountConfig : Option GoMap := none

/-- `VolumeMount`. -/
structure VolumeMount where
  driver : Option GoString := none
  containerDir : Option GoString := none
  mode : Option GoString := none
  deviceType : Option GoString := none
  device : Option VolumeMountDevice := none

/-- `BindingMetadata`. -/
structure BindingMetadata where
  expiresAt : GoString := []
  renewBefore : GoString := []

/-- `BindResponse`: what a bind or a rotation returns. `operationKey` is the `*OperationKey`. -/
structure BindResponse where
  async : Bool := false
  credentials : GoMap := none
  syslogDrainURL : Option GoString := none
  routeServiceURL : Option GoString := none
  volumeMounts : List VolumeMount := []
  endpoints : Option (List Endpoint) := none
  metadata : Option BindingMetadata := none
  operationKey : Option GoString := none

/-- `bindSuccessResponseBody`. Modelled from the spec: the declaration is missing from the
sources; its fields are those `RotateBinding` copies into a `BindResponse`, named as the API
names the members of a binding response. -/
structure BindSuccessResponseBody where
  credentials : GoMap := none
  syslogDrainURL : Option GoString := none
  routeServiceURL : Option GoString := none
  volumeMounts : List VolumeMount := []
  endpoints : Option (List Endpoint) := none
  metadata : Option BindingMetadata := none
  operation : Option GoString := none

/-- `rotateBindingRequestBody`: the body of a rotation request. -/
structure RotateBindingRequestBody where
  predecessorBindingId : Option GoString

/-! ### Decoders -/

/-- A `*string` field. -/
def decodeStringPtr : Decoder (Option GoString) := decodePtr (decodeString "string") []

/-- `Endpoint`. -/
def decodeEndpoint : Decoder Endpoint :=
  decodeStruct
    [field "host" (decodeString "string") (·.host) ({ · with host := · }),
     field "ports" (decodeSlice decodeUint16 0 "[]uint16") (·.ports) ({ · with ports := · }),
     field "Protocol" (decodePtr (decodeString "v2.EndpointProtocol") []) (·.protocol)
       ({ · with protocol := · })]
    "v2.Endpoint"

/-- `*[]Endpoint`. -/
def decodeEndpoints : Decoder (Option (List Endpoint)) :=
  decodePtr (decodeSlice decodeEndpoint {} "[]v2.Endpoint") []

/-- `VolumeMountDevice`. -/
def decodeVolumeMountDevice : Decoder VolumeMountDevice :=
  decodeStruct
    [field "volume_id" decodeStringPtr (·.volumeID) ({ · with volumeID := · }),
     field "mount_config" (decodePtr decodeMap none) (·.mountConfig) ({ · with mountConfig := · })]
    "v2.VolumeMountDevice"

/-- `VolumeMount`. -/
def decodeVolumeMount : Decoder VolumeMount :=
  decodeStruct
    [field "driver" decodeStringPtr (·.driver) ({ · with driver := · }),
     field "container_dir" decodeStringPtr (·.containerDir) ({ · with containerDir := · }),
     field "mode" decodeStringPtr (·.mode) ({ · with mode := · }),
     field "device_type" decodeStringPtr (·.deviceType) ({ · with deviceType := · }),
     field "device" (decodePtr decodeVolumeMountDevice {}) (·.device) ({ · with device := · })]
    "v2.VolumeMount"

/-- `[]VolumeMount`. -/
def decodeVolumeMounts : Decoder (List VolumeMount) :=
  decodeSlice decodeVolumeMount {} "[]v2.VolumeMount"

/-- `*BindingMetadata`. -/
def decodeMetadata : Decoder (Option BindingMetadata) :=
  decodePtr (decodeStruct
    [field "expires_at" (decodeString "string") (·.expiresAt) ({ · with expiresAt := · }),
     field "renew_before" (decodeString "string") (·.renewBefore) ({ · with renewBefore := · })]
    "v2.BindingMetadata") {}

/-- The fields of `BindResponse`, by their tags. -/
def bindResponseFields : List (StructField BindResponse) :=
  [field "async" decodeBool (·.async) ({ · with async := · }),
   field "credentials" decodeMap (·.credentials) ({ · with credentials := · }),
   field "syslog_drain_url" decodeStringPtr (·.syslogDrainURL) ({ · with syslogDrainURL := · }),
   field "route_service_url" decodeStringPtr (·.routeServiceURL)
     ({ · with routeServiceURL := · }),
   field "volume_mounts" decodeVolumeMounts (·.volumeMounts) ({ · with volumeMounts := · }),
   field "endpoints" decodeEndpoints (·.endpoints) ({ · with endpoints := · }),
   field "metadata" decodeMetadata (·.metadata) ({ · with metadata := · }),
   field "operation" (decodePtr (decodeString "v2.OperationKey") []) (·.operationKey)
     ({ · with operationKey := · })]

/-- `BindResponse`. -/
def decodeBindResponse : Decoder BindResponse := decodeStruct bindResponseFields "v2.BindResponse"

/-- The fields of `bindSuccessResponseBody`. -/
def bindSuccessFields : List (StructField BindSuccessResponseBody) :=
  [field "credentials" decodeMap (·.credentials) ({ · with credentials := · }),
   field "syslog_drain_url" decodeStringPtr (·.syslogDrainURL) ({ · with syslogDrainURL := · }),
   field "route_service_url" decodeStringPtr (·.routeServiceURL)
     ({ · with routeServiceURL := · }),
   field "volume_mounts" decodeVolumeMounts (·.volumeMounts) ({ · with volumeMounts := · }),
   field "endpoints" decodeEndpoints (·.endpoints) ({ · with endpoints := · }),
   field "metadata" decodeMetadata (·.metadata) ({ · with metadata := · }),
   field "operation" decodeStringPtr (·.operation) ({ · with operation := · })]

/-- `bindSuccessResponseBody`. -/
def decodeBindSuccess : Decoder BindSuccessResponseBody :=
  decodeStruct bindSuccessFields "v2.bindSuccessResponseBody"

/-! ### The request body -/

/-- A `*rotateBindingRequestBody` as `json.Marshal` sees it: a struct of one `*string` field,
tagged `predecessor_binding_id`, without `omitempty`. -/
def RotateBindingRequestBody.goValue (b : RotateBindingRequestBody) : GoValue :=
  .struct [("predecessor_binding_id",
    match b.predecessorBindingId with
    | some s => .string s
    | none => .null)]

/-- `json.Marshal` of a `rotateBindingRequestBody`: the value of the text it writes. The field
has no `omitempty`, and the string is coerced to UTF-8 as every string `json.Marshal` writes. -/
def RotateBindingRequestBody.marshal (b : RotateBindingRequestBody) : JSON :=
  .object [("predecessor_binding_id",
    match b.predecessorBindingId with
    | some s => .string (coerceUTF8 s)
    | none => .null)]

/-- The encoder writes every rotation body: nothing in it is a value it refuses. -/
theorem RotateBindingRequestBody.marshal_goValue (b : RotateBindingRequestBody) :
    Json.marshal b.goValue = .ok b.marshal := by
  rcases b with ⟨_ | s⟩ <;> rfl

end OsbClient
