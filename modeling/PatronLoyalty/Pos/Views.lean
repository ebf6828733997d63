import PatronLoyalty.Pos.Connections

/-!
# What clients see of a POS connection

`toView` strips the encrypted access token from the config. `updateSquareOAuth` also stores an
encrypted refresh token there, and that one stays.

Headline: **`views_hide_secrets`**, rows that differ in secrets only have the same view exactly if
their refresh tokens agree; so they have in all runs in which no callback brings one.
`views_show_refreshToken` is a pair of runs that clients can tell apart.
-/

namespace PatronLoyalty.Pos

structure PosConnectionView where
  provider : PosProvider
  status : String
  createdAt : ℕ
  updatedAt : ℕ
  config : PosConfig
  deriving DecidableEq, Repr

/-- `const { encryptedAccessToken: _omit, ...safeConfig } = cfg`. -/
def toView (provider : PosProvider) (createdAt updatedAt : ℕ) (row : LoyaltyPosConnection) :
    PosConnectionView where
  provider
  status := row.status
  createdAt
  updatedAt
  config := { row.config with encryptedAccessToken := none }

/-- The rows differ at most in access tokens, refresh tokens and webhook signature keys. -/
structure SameButSecrets (r r' : LoyaltyPosConnection) : Prop where
  status : r.status = r'.status
  locationId : r.config.locationId = r'.config.locationId
  merchantId : r.config.merchantId = r'.config.merchantId

def bringsRefreshToken : Op → Bool
  | .readOAuth .square _ data => (given data.refreshToken).isSome
  | _ => false

structure Refreshless (s : PosState) : Prop where
  rows {orgId : String} {provider : PosProvider} {row : LoyaltyPosConnection} :
    s.connections orgId provider = some row → row.config.encryptedRefreshToken = none
  existing {cb : OAuthCallback} {config : PosConfig} : cb ∈ s.callbacks → cb.existing = some config →
    config.encryptedRefreshToken = none
  data {cb : OAuthCallback} : cb ∈ s.callbacks → cb.provider = .square →
    given cb.data.refreshToken = none

section

variable {Body Payload : Type} {p : Platform Body Payload} {s s' : PosState} {op : Op}
  {r r' : LoyaltyPosConnection}

/-- **The views of rows that differ in secrets** agree if and only if the refresh tokens do. -/
theorem toView_eq_iff (h : SameButSecrets r r') (provider : PosProvider) (createdAt updatedAt : ℕ) :
    toView provider createdAt updatedAt r = toView provider createdAt updatedAt r' ↔
      r.config.encryptedRefreshToken = r'.config.encryptedRefreshToken := by
  unfold toView
  simp only [PosConnectionView.mk.injEq, PosConfig.mk.injEq, h.status, h.locationId, h.merchantId,
    true_and]

theorem OAuthCallback.config_refreshless {cb : OAuthCallback} {iv iv' : ℕ} {config : PosConfig}
    (he : ∀ c, cb.existing = some c → c.encryptedRefreshToken = none)
    (hd : cb.provider = .square → given cb.data.refreshToken = none)
    (h : cb.config p iv iv' = some config) : config.encryptedRefreshToken = none := by
  have hex : (cb.existing.getD {}).encryptedRefreshToken = none := by
    cases hc : cb.existing with
    | none => rfl
    | some c => exact he c hc
  unfold OAuthCallback.config at h
  split at h
  · rename_i hp
    obtain ⟨token, -, h⟩ := Option.bind_eq_some_iff.mp h
    rw [hd hp] at h
    obtain ⟨c, hc, h⟩ := Option.bind_eq_some_iff.mp h
    cases hc
    split at h
    · cases h
      exact hex
    · cases h
      exact hex
  · obtain ⟨token, -, h⟩ := Option.bind_eq_some_iff.mp h
    dsimp only at h
    split at h
    · cases h
      exact hex
    · cases h
      exact hex

theorem Refreshless.upsertConnection {orgId key : String} {provider : PosProvider}
    {config : PosConfig} (hs : Refreshless s) (hc : config.encryptedRefreshToken = none) :
    Refreshless (upsertConnection s orgId provider key config) where
  rows h := by
    rcases Connections.set_eq_some h with ⟨-, -, hx⟩ | hx
    · cases hx
      cases s.connections orgId provider with
      | none => exact hc
      | some row => exact hc
    · exact hs.rows hx
  existing := hs.existing
  data := hs.data

/-- **Every operation but such a callback** leaves no refresh token. -/
theorem step_refreshless (hs : Refreshless s) (ho : bringsRefreshToken op = false)
    (h : step p s op = some s') : Refreshless s' := by
  cases op with
  | upsertSquare orgId input iv =>
    obtain ⟨token, -, h⟩ := Option.bind_eq_some_iff.mp h
    cases h
    exact hs.upsertConnection rfl
  | upsertClover orgId input iv =>
    obtain ⟨token, -, h⟩ := Option.bind_eq_some_iff.mp h
    cases h
    exact hs.upsertConnection rfl
  | readOAuth provider orgId data =>
    cases h
    refine ⟨hs.rows, fun {cb config} hcb hex => ?_, fun {cb} hcb hsq => ?_⟩
    · rcases List.mem_append.mp hcb with hcb | hcb
      · exact hs.existing hcb hex
      · obtain rfl := List.mem_singleton.mp hcb
        obtain ⟨row, hrow, rfl⟩ := Option.map_eq_some_iff.mp hex
        exact hs.rows hrow
    · rcases List.mem_append.mp hcb with hcb | hcb
      · exact hs.data hcb hsq
      · obtain rfl := List.mem_singleton.mp hcb
        obtain rfl : provider = .square := hsq
        exact Option.not_isSome_iff_eq_none.mp (Bool.eq_false_iff.mp ho)
  | upsertOAuth n iv iv' =>
    obtain ⟨cb, hcb, h⟩ := Option.bind_eq_some_iff.mp h
    obtain ⟨config, hconfig, h⟩ := Option.bind_eq_some_iff.mp h
    cases h
    have hmem : cb ∈ s.callbacks := List.mem_of_getElem? hcb
    have hplain := cb.config_refreshless (fun _ => hs.existing hmem) (hs.data hmem) hconfig
    refine ⟨fun hrow => ?_, fun hx => hs.existing (List.mem_of_mem_eraseIdx hx),
      fun hx => hs.data (List.mem_of_mem_eraseIdx hx)⟩
    rcases Connections.set_eq_some hrow with ⟨-, -, hx⟩ | hx
    · cases hx
      cases s.connections cb.orgId cb.provider with
      | none => exact hplain
      | some row => exact hplain
    · exact hs.rows hx
  | deleteConnection orgId provider =>
    obtain ⟨-, h⟩ := Option.ite_none_right_eq_some.mp h
    cases h
    refine ⟨fun hrow => ?_, hs.existing, hs.data⟩
    rcases Connections.set_eq_some hrow with ⟨-, -, hx⟩ | hx
    · cases hx
    · exact hs.rows hx

theorem reach_refreshless (h : Reach p (fun _ op => bringsRefreshToken op = false) s) :
    Refreshless s := by
  induction h with
  | init =>
    exact { rows := fun hrow => (by cases hrow), existing := fun hcb _ => (by cases hcb)
            data := fun hcb _ => (by cases hcb) }
  | tail _ ho hs ih => exact step_refreshless ih ho hs

/-- **Views hide the secrets** but for the refresh tokens: in runs in which no Square callback brings
one, stored rows that differ in secrets only have the same view. -/
theorem views_hide_secrets (p : Platform Body Payload) :
    (∀ r r' provider createdAt updatedAt, SameButSecrets r r' →
      (toView provider createdAt updatedAt r = toView provider createdAt updatedAt r' ↔
        r.config.encryptedRefreshToken = r'.config.encryptedRefreshToken)) ∧
    ∀ s s', Reach p (fun _ op => bringsRefreshToken op = false) s →
      Reach p (fun _ op => bringsRefreshToken op = false) s' →
      ∀ orgId orgId' provider createdAt updatedAt r r', s.connections orgId provider = some r →
        s'.connections orgId' provider = some r' → SameButSecrets r r' →
        toView provider createdAt updatedAt r = toView provider createdAt updatedAt r' := by
  refine ⟨fun r r' provider createdAt updatedAt h => toView_eq_iff h _ _ _,
    fun s s' hs hs' orgId orgId' provider createdAt updatedAt r r' hr hr' h => ?_⟩
  rw [toView_eq_iff h, (reach_refreshless hs).rows hr, (reach_refreshless hs').rows hr']

end

/-! ## Two runs -/

/-- Staff connect Square, then a callback brings both tokens. -/
def connectThenRefresh (accessToken refreshToken : String) (iv iv' : ℕ) : List Op :=
  [.upsertSquare "org-1" ⟨"L1", "EAAA-staff-token", "sq-signature-key-1"⟩ 2,
   .readOAuth .square "org-1" { accessToken, refreshToken := some refreshToken },
   .upsertOAuth 0 iv iv']

/-- **The view shows the refresh token**: two connections that differ only in their tokens. -/
theorem views_show_refreshToken : ∃ s s' : PosState, Reach sample (fun _ _ => True) s ∧
    Reach sample (fun _ _ => True) s' ∧ ∃ r r', s.connections "org-1" .square = some r ∧
      s'.connections "org-1" .square = some r' ∧ SameButSecrets r r' ∧
      toView .square 0 0 r ≠ toView .square 0 0 r' := by
  obtain ⟨s, hs, hq⟩ := exists_reach_runOps (p := sample) (P := fun _ _ => True)
    (o := fun _ _ => true) (fun _ _ _ => trivial)
    (connectThenRefresh "EAAA-oauth-token" "EAAA-staff-token" 1 2)
    (fun s => decide (s.connections "org-1" .square = some
      { webhookSignatureKey := "sq-signature-key-1"
        config := { locationId := "L1"
                    encryptedAccessToken := sample.encrypt 1 "EAAA-oauth-token"
                    encryptedRefreshToken := sample.encrypt 2 "EAAA-staff-token" } }))
    (by decide +kernel)
  obtain ⟨s', hs', hq'⟩ := exists_reach_runOps (p := sample) (P := fun _ _ => True)
    (o := fun _ _ => true) (fun _ _ _ => trivial)
    (connectThenRefresh "EAAA-staff-token" "EAAA-oauth-token" 2 1)
    (fun s => decide (s.connections "org-1" .square = some
      { webhookSignatureKey := "sq-signature-key-1"
        config := { locationId := "L1"
                    encryptedAccessToken := sample.encrypt 2 "EAAA-staff-token"
                    encryptedRefreshToken := sample.encrypt 1 "EAAA-oauth-token" } }))
    (by decide +kernel)
  exact ⟨s, s', hs, hs', _, _, of_decide_eq_true hq, of_decide_eq_true hq', ⟨rfl, rfl, rfl⟩,
    by decide +kernel⟩

end PatronLoyalty.Pos
