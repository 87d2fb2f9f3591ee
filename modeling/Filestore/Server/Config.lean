import Filestore.Common.ReadableSize

/-!
# Server configurations and their serialized form

Both configurations are flat records of addresses, size limits and switches.  Every field but the
sizes is reloaded as it was saved, so a configuration survives a save and reload exactly when its
size limits do.
-/

namespace Filestore.Server

open Common Serde

abbrev ConfigError := Error ReadableSize.ParseError

/-! ## Field types -/

def deserializeString : Scalar → Except ConfigError String
  | .str value => .ok value
  | scalar => .error (.invalidType scalar "a string")

def deserializeBool : Scalar → Except ConfigError Bool
  | .bool value => .ok value
  | scalar => .error (.invalidType scalar "a boolean")

theorem deserializeString_of_same {value : String} {other : Scalar}
    (h : (Scalar.str value).Same other) : deserializeString other = .ok value := by
  cases h
  rfl

theorem deserializeBool_of_same {value : Bool} {other : Scalar}
    (h : (Scalar.bool value).Same other) : deserializeBool other = .ok value := by
  cases h
  rfl

/-- Save a value through a format and load it again; `none` if the format cannot read its own
output. -/
def reload {Wire α : Type} (format : Format Wire) (serialize : α → Record)
    (deserialize : Record → Except ConfigError α) (value : α) : Option (Except ConfigError α) :=
  (format.read (format.write (serialize value))).map deserialize

/-! ## The gRPC server -/

def defaultMaxGrpcRecvMessageSize : ReadableSize := .mb 512

def defaultMaxGrpcSendMessageSize : ReadableSize := .mb 512

/-- Configuration options for a gRPC server. -/
structure GrpcServerConfig where
  bindAddress : String := "127.0.0.1:50051"
  serverAddress : String := "127.0.0.1:50051"
  maxRecvMessageSize : ReadableSize := defaultMaxGrpcRecvMessageSize
  maxSendMessageSize : ReadableSize := defaultMaxGrpcSendMessageSize
  deriving DecidableEq

namespace GrpcServerConfig

instance : Inhabited GrpcServerConfig := ⟨{}⟩

def serialize (config : GrpcServerConfig) : Record :=
  [("bind_address", .str config.bindAddress),
    ("server_address", .str config.serverAddress),
    ("max_recv_message_size", config.maxRecvMessageSize.serialize),
    ("max_send_message_size", config.maxSendMessageSize.serialize)]

def deserialize (record : Record) : Except ConfigError GrpcServerConfig := do
  let bindAddress ← field "bind_address" deserializeString record
  let serverAddress ← field "server_address" deserializeString record
  let maxRecvMessageSize ← field "max_recv_message_size" ReadableSize.deserialize record
  let maxSendMessageSize ← field "max_send_message_size" ReadableSize.deserialize record
  return { bindAddress, serverAddress, maxRecvMessageSize, maxSendMessageSize }

/-- Reloading a configuration reloads its two sizes and keeps everything else. -/
theorem reload_eq {Wire : Type} (format : Format Wire) (config : GrpcServerConfig) :
    reload format serialize deserialize config = some (do
      let maxRecvMessageSize ← ReadableSize.deserialize config.maxRecvMessageSize.serialize
      let maxSendMessageSize ← ReadableSize.deserialize config.maxSendMessageSize.serialize
      return { config with maxRecvMessageSize, maxSendMessageSize }) := by
  obtain ⟨back, hread, hcarries⟩ := format.lossless config.serialize
  obtain ⟨bind, hbind, hbindField⟩ := field_of_carries hcarries "bind_address" rfl
    deserializeString
  obtain ⟨server, hserver, hserverField⟩ := field_of_carries hcarries "server_address" rfl
    deserializeString
  obtain ⟨recv, hrecv, hrecvField⟩ := field_of_carries hcarries "max_recv_message_size" rfl
    ReadableSize.deserialize
  obtain ⟨send, hsend, hsendField⟩ := field_of_carries hcarries "max_send_message_size" rfl
    ReadableSize.deserialize
  rw [deserializeString_of_same hbind] at hbindField
  rw [deserializeString_of_same hserver] at hserverField
  rw [ReadableSize.deserialize_of_same hrecv] at hrecvField
  rw [ReadableSize.deserialize_of_same hsend] at hsendField
  simp only [reload, hread, Option.map_some, deserialize, hbindField, hserverField, hrecvField,
    hsendField]
  rfl

theorem reload_eq_self_iff {Wire : Type} (format : Format Wire) (config : GrpcServerConfig) :
    reload format serialize deserialize config = some (.ok config) ↔
      config.maxRecvMessageSize.SurvivesReload ∧ config.maxSendMessageSize.SurvivesReload := by
  rw [reload_eq, ← ReadableSize.deserialize_serialize_iff,
    ← ReadableSize.deserialize_serialize_iff]
  obtain ⟨bindAddress, serverAddress, recv, send⟩ := config
  dsimp only
  cases ReadableSize.deserialize recv.serialize <;>
    cases ReadableSize.deserialize send.serialize <;>
      simp [bind, Except.bind, pure, Except.pure]

end GrpcServerConfig

/-! ## The REST server -/

def defaultMaxHttpBodySize : ReadableSize := .mb 100

/-- Configuration options for a REST server. -/
structure RestServerConfig where
  bindAddress : String := "127.0.0.1:3000"
  maxBodySize : ReadableSize := defaultMaxHttpBodySize
  enableCors : Bool := true
  deriving DecidableEq

namespace RestServerConfig

instance : Inhabited RestServerConfig := ⟨{}⟩

def serialize (config : RestServerConfig) : Record :=
  [("bind_address", .str config.bindAddress),
    ("max_body_size", config.maxBodySize.serialize),
    ("enable_cors", .bool config.enableCors)]

def deserialize (record : Record) : Except ConfigError RestServerConfig := do
  let bindAddress ← field "bind_address" deserializeString record
  let maxBodySize ← field "max_body_size" ReadableSize.deserialize record
  let enableCors ← field "enable_cors" deserializeBool record
  return { bindAddress, maxBodySize, enableCors }

/-- Reloading a configuration reloads its body limit and keeps everything else. -/
theorem reload_eq {Wire : Type} (format : Format Wire) (config : RestServerConfig) :
    reload format serialize deserialize config = some (do
      let maxBodySize ← ReadableSize.deserialize config.maxBodySize.serialize
      return { config with maxBodySize }) := by
  obtain ⟨back, hread, hcarries⟩ := format.lossless config.serialize
  obtain ⟨bind, hbind, hbindField⟩ := field_of_carries hcarries "bind_address" rfl
    deserializeString
  obtain ⟨body, hbody, hbodyField⟩ := field_of_carries hcarries "max_body_size" rfl
    ReadableSize.deserialize
  obtain ⟨cors, hcors, hcorsField⟩ := field_of_carries hcarries "enable_cors" rfl deserializeBool
  rw [deserializeString_of_same hbind] at hbindField
  rw [ReadableSize.deserialize_of_same hbody] at hbodyField
  rw [deserializeBool_of_same hcors] at hcorsField
  simp only [reload, hread, Option.map_some, deserialize, hbindField, hbodyField, hcorsField]
  rfl

theorem reload_eq_self_iff {Wire : Type} (format : Format Wire) (config : RestServerConfig) :
    reload format serialize deserialize config = some (.ok config) ↔
      config.maxBodySize.SurvivesReload := by
  rw [reload_eq, ← ReadableSize.deserialize_serialize_iff]
  obtain ⟨bindAddress, body, enableCors⟩ := config
  dsimp only
  cases ReadableSize.deserialize body.serialize <;> simp [bind, Except.bind, pure, Except.pure]

end RestServerConfig

/-! ## Saving and reloading sizes -/

/-- The default limits survive. -/
theorem default_survivesReload :
    defaultMaxGrpcRecvMessageSize.SurvivesReload ∧ defaultMaxGrpcSendMessageSize.SurvivesReload ∧
      defaultMaxHttpBodySize.SurvivesReload := by
  decide

/-- A size, and a configuration that holds it, survives a save and reload exactly when the size is
not an odd number of KiB from `2 ^ 63` bytes on. -/
theorem size_reload_exact_iff {Wire : Type} (format : Format Wire) (size : ReadableSize)
    (grpcConfig : GrpcServerConfig) (restConfig : RestServerConfig) :
    (ReadableSize.deserialize size.serialize = .ok size ↔ size.SurvivesReload) ∧
    (reload format GrpcServerConfig.serialize GrpcServerConfig.deserialize grpcConfig =
        some (.ok grpcConfig) ↔
      grpcConfig.maxRecvMessageSize.SurvivesReload ∧
        grpcConfig.maxSendMessageSize.SurvivesReload) ∧
    (reload format RestServerConfig.serialize RestServerConfig.deserialize restConfig =
        some (.ok restConfig) ↔
      restConfig.maxBodySize.SurvivesReload) :=
  ⟨ReadableSize.deserialize_serialize_iff size, grpcConfig.reload_eq_self_iff format,
    restConfig.reload_eq_self_iff format⟩

example : reload Format.records RestServerConfig.serialize RestServerConfig.deserialize
    { maxBodySize := ⟨9223372036854776832⟩ } =
      some (.ok { maxBodySize := ⟨9223372036854775808⟩ }) := by decide +kernel

/-- `9007199254740993KiB` is read back 1024 bytes short. -/
theorem size_reload_loses_kib :
    ReadableSize.serialize ⟨9223372036854776832⟩ = .str "9007199254740993KiB" ∧
      ReadableSize.deserialize (.str "9007199254740993KiB") = .ok ⟨9223372036854775808⟩ ∧
      ¬ ∀ size : ReadableSize, ReadableSize.deserialize size.serialize = .ok size := by
  have hserialize : ReadableSize.serialize ⟨9223372036854776832⟩ = .str "9007199254740993KiB" := by
    decide +kernel
  have hdeserialize :
      ReadableSize.deserialize (.str "9007199254740993KiB") = .ok ⟨9223372036854775808⟩ := by
    decide +kernel
  refine ⟨hserialize, hdeserialize, fun h ↦ ?_⟩
  have hsame := h ⟨9223372036854776832⟩
  rw [hserialize, hdeserialize] at hsame
  exact absurd hsame (by decide)

end Filestore.Server
