import InodeVpn.Core.Ipc

namespace InodeVpn.Proofs.IpcWire
open InodeVpn.Core Lib Lib.Json

section Snapshots

theorem ofString_ne_null (s : String) : ofString s ≠ .null := by
  rintro ⟨⟩

theorem ofNat_ne_null (n : Nat) : ofNat n ≠ .null := by
  rintro ⟨⟩

theorem optional_string (s : Option String) :
    (Found.ofOption (s.map ofString)).optional asString = some s :=
  Found.optional_ofOption (fun s _ => asString_ofString s) ofString_ne_null

theorem optional_unsigned {bits : Nat} {n : Option Nat} (h : ∀ m ∈ n, m < 2 ^ bits) :
    (Found.ofOption (n.map ofNat)).optional (asUnsigned bits) = some n :=
  Found.optional_ofOption (fun m hm => asUnsigned_ofNat (h m hm)) ofNat_ne_null

theorem decode_state (s : SessionState) :
    SessionState.decode (ofString s.serialName) = some s := by
  rw [ofString, SessionState.decode, String.ofList_toList]
  cases s <;> rfl

theorem decode_health (sorted : Bool) (h : HealthStatus) :
    HealthStatus.decode (h.encode sorted) = some h := by
  rw [HealthStatus.encode, HealthStatus.decode, structFields_struct, Option.bind_eq_bind,
    Option.bind_some, findLast_struct (v := some (.bool h.checkonlineOk)) (by simp) (by simp),
    findLast_struct (v := h.lastCheck.map ofString) (by simp) (by simp), optional_string]
  rfl

theorem decode_service (sorted : Bool) (s : ServiceStatus) :
    ServiceStatus.decode (s.encode sorted) = some s := by
  rw [ServiceStatus.encode, ServiceStatus.decode, structFields_struct, Option.bind_eq_bind,
    Option.bind_some, findLast_struct (v := some (ofString s.supervisor)) (by simp) (by simp),
    findLast_struct (v := some (.bool s.enabled)) (by simp) (by simp),
    findLast_struct (v := some (.bool s.autostart)) (by simp) (by simp)]
  simp [asBool]

theorem decode_stats (sorted : Bool) {s : Stats} (h : s.txPkts < 2 ^ 64 ∧ s.txBytes < 2 ^ 64 ∧
    s.rxPkts < 2 ^ 64 ∧ s.rxBytes < 2 ^ 64) : Stats.decode (s.encode sorted) = some s := by
  obtain ⟨htxPkts, htxBytes, hrxPkts, hrxBytes⟩ := h
  rw [Stats.encode, Stats.decode, structFields_struct, Option.bind_eq_bind, Option.bind_some,
    findLast_struct (v := some (ofNat s.txPkts)) (by simp) (by simp),
    findLast_struct (v := some (ofNat s.txBytes)) (by simp) (by simp),
    findLast_struct (v := some (ofNat s.rxPkts)) (by simp) (by simp),
    findLast_struct (v := some (ofNat s.rxBytes)) (by simp) (by simp)]
  simp only [Found.required_ofOption, asUnsigned_ofNat htxPkts, asUnsigned_ofNat htxBytes,
    asUnsigned_ofNat hrxPkts, asUnsigned_ofNat hrxBytes, Option.bind_eq_bind, Option.bind_some]
  rfl

theorem decode_session (sorted : Bool) {s : SessionInfo} (hmtu : ∀ n ∈ s.mtu, n < 2 ^ 32)
    (hkeepalive : ∀ n ∈ s.keepalive, n < 2 ^ 64) :
    SessionInfo.decode (s.encode sorted) = some s := by
  rw [SessionInfo.encode, SessionInfo.decode, structFields_struct, Option.bind_eq_bind,
    Option.bind_some, findLast_struct (v := s.ip.map ofString) (by simp) (by simp),
    findLast_struct (v := s.mtu.map ofNat) (by simp) (by simp),
    findLast_struct (v := some (ofStrings s.routes)) (by simp) (by simp),
    findLast_struct (v := some (ofStrings s.dns)) (by simp) (by simp),
    findLast_struct (v := s.keepalive.map ofNat) (by simp) (by simp), optional_string,
    optional_unsigned hmtu, optional_unsigned hkeepalive]
  simp

theorem struct_ne_null (sorted : Bool) (fields : Fields) : struct sorted fields ≠ .null := by
  rintro ⟨⟩

/-- A snapshot is decoded from the value that was made of it. -/
theorem decode_snapshot (sorted : Bool) {s : StatusSnapshot} (h : s.Fits) :
    StatusSnapshot.decode (s.encode sorted) = some s := by
  have hsession :
      (Found.ofOption (s.session.map (SessionInfo.encode sorted))).optional SessionInfo.decode =
      some s.session :=
    Found.optional_ofOption (fun i hi => decode_session sorted (h.mtu i hi) (h.keepalive i hi))
      fun i => struct_ne_null sorted _
  have hstats : (Found.ofOption (s.stats.map (Stats.encode sorted))).optional Stats.decode =
      some s.stats :=
    Found.optional_ofOption (fun t ht => decode_stats sorted (h.stats t ht)) fun t =>
      struct_ne_null sorted _
  have hhealth :
      (Found.ofOption (s.health.map (HealthStatus.encode sorted))).optional HealthStatus.decode =
      some s.health :=
    Found.optional_ofOption (fun t _ => decode_health sorted t) fun t => struct_ne_null sorted _
  rw [StatusSnapshot.encode, StatusSnapshot.decode, structFields_struct, Option.bind_eq_bind,
    Option.bind_some, findLast_struct (v := some (ofString s.state.serialName)) (by simp) (by simp),
    findLast_struct (v := s.since.map ofString) (by simp) (by simp),
    findLast_struct (v := s.gateway.map ofString) (by simp) (by simp),
    findLast_struct (v := s.session.map (SessionInfo.encode sorted)) (by simp) (by simp),
    findLast_struct (v := s.stats.map (Stats.encode sorted)) (by simp) (by simp),
    findLast_struct (v := s.lastError.map ofString) (by simp) (by simp),
    findLast_struct (v := s.health.map (HealthStatus.encode sorted)) (by simp) (by simp),
    findLast_struct (v := some (s.service.encode sorted)) (by simp) (by simp)]
  simp only [optional_string, hsession, hstats, hhealth, Found.required_ofOption,
    decode_state, decode_service, Option.bind_eq_bind, Option.bind_some]
  rfl

end Snapshots

section Messages
open Ipc

theorem asU64_ofNat (id : UInt64) : asU64 (ofNat id.toNat) = some id := by
  rw [asU64, asUnsigned_ofNat (UInt64.toNat_lt id), Option.map_some, UInt64.ofNat_toNat]

theorem asI32_ofInt (code : Int32) : asI32 (ofInt code.toInt) = some code := by
  rw [asI32, asSigned_ofInt (Int32.le_toInt code) (Int32.toInt_lt code), Option.map_some,
    Int32.ofInt_toInt]

theorem decode_request (r : Ipc.Request) : Ipc.Request.decode r.encode = some r := by
  rw [Ipc.Request.encode, Ipc.Request.decode, structFields_object, Option.bind_eq_bind,
    Option.bind_some, find_present (v := some (ofString r.jsonrpc)) (by simp) (by simp),
    find_present (v := some (ofNat r.id.toNat)) (by simp) (by simp),
    find_present (v := some (ofString r.method)) (by simp) (by simp),
    find_present (v := some r.params) (by simp) (by simp)]
  simp [asU64_ofNat]

theorem decode_error (e : RpcError) : RpcError.decode e.encode = some e := by
  rw [RpcError.encode, RpcError.decode, structFields_object, Option.bind_eq_bind,
    Option.bind_some, find_present (v := some (ofInt e.code.toInt)) (by simp) (by simp),
    find_present (v := some (ofString e.message)) (by simp) (by simp)]
  simp [asI32_ofInt]

/-- A response comes back as it was, unless its result is `null`, which is read as none. -/
theorem decode_response {r : Ipc.Response} (h : r.result ≠ some .null) :
    Ipc.Response.decode r.encode = some r := by
  have hresult : (Found.ofOption r.result).optional some = some r.result := by
    cases hr : r.result with
    | none => rfl
    | some v =>
      simp only [Found.ofOption, Found.optional, Found.defaulted]
      unfold Found.orNull
      split
      · exact absurd hr h
      · rfl
  have herror : (Found.ofOption (r.error.map RpcError.encode)).optional RpcError.decode =
      some r.error :=
    Found.optional_ofOption (fun e _ => decode_error e) fun e => by rintro ⟨⟩
  rw [Ipc.Response.encode, Ipc.Response.decode, structFields_object, Option.bind_eq_bind,
    Option.bind_some, find_present (v := some (ofString r.jsonrpc)) (by simp) (by simp),
    find_present (v := some (ofNat r.id.toNat)) (by simp) (by simp),
    find_present (v := r.result) (by simp) (by simp),
    find_present (v := r.error.map RpcError.encode) (by simp) (by simp), hresult, herror]
  simp [asU64_ofNat]

theorem decode_event (e : Ipc.Event) : Ipc.Event.decode e.encode = some e := by
  rw [Ipc.Event.encode, Ipc.Event.decode, structFields_object, Option.bind_eq_bind,
    Option.bind_some, find_present (v := some (ofString e.jsonrpc)) (by simp) (by simp),
    find_present (v := some (ofString e.method)) (by simp) (by simp),
    find_present (v := some e.params) (by simp) (by simp)]
  simp

end Messages

end InodeVpn.Proofs.IpcWire
