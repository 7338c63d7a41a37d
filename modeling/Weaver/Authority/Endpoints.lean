import Mathlib.Data.Finset.Dedup
import Weaver.Authority.Handle

/-!
# The endpoints of the members

`allowed_member_endpoints` parses every endpoint binding of a configuration. It fails on the first
one that is not an endpoint, so that one such entry denies access to every member.
-/

namespace Weaver

open Checked Wire

variable [Crypto]

def boundEndpoint (raw : Bytes) : Except AuthorityError EndpointId := do
  let binding ← (EndpointBinding.fromBytes raw).mapError .crypto
  okOr (EndpointId.fromBytes binding.payload.endpointId) .corruptState

def Authority.allowedMemberEndpoints (self : Authority) :
    Except AuthorityError (Finset EndpointId) :=
  (self.config.asConfig.endpointBindings.mapM boundEndpoint).map List.toFinset

theorem boundEndpoint_toBytes_eq_ok {binding : EndpointBinding} {endpoint : EndpointId} :
    boundEndpoint binding.toBytes = .ok endpoint ↔
      binding.payload.endpointId = endpoint.asBytes := by
  have hread : EndpointBinding.fromBytes binding.toBytes = .ok binding :=
    Signed.fromBytes_toBytes binding
  unfold boundEndpoint
  rw [hread, mapError_ok, ok_bind, okOr_eq_ok, EndpointId.fromBytes_eq_some]
  exact eq_comm

theorem mapM_boundEndpoint_append {raws : List Bytes} {raw : Bytes} {endpoints : List EndpointId}
    {endpoint : EndpointId} (h : raws.mapM boundEndpoint = .ok endpoints)
    (hraw : boundEndpoint raw = .ok endpoint) :
    (raws ++ [raw]).mapM boundEndpoint = .ok (endpoints ++ [endpoint]) := by
  rw [mapM_eq_ok] at h ⊢
  exact List.rel_append h (.cons hraw .nil)

end Weaver
