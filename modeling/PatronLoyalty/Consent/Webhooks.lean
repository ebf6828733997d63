import PatronLoyalty.Consent.Ledger
import PatronLoyalty.Txn.Retry

/-!
# Whose consent a webhook revokes

The webhook of a marketing provider looks an e-mail up in all organisations, and revokes the consent of
every customer it finds; nothing of the request is checked. `Reaches s r id c`: the request finds the
customer. `Authenticated s r orgId`: the request presents the secret of a connection of the organisation
to the provider.

Headline: **`contained_iff`**, a request changes only what it is authenticated for exactly where all it
would revoke is of authenticated organisations, and where it finds nothing without a secret.
-/

namespace PatronLoyalty.Consent

open Txn
open Loyalty (Id)

variable {s s' a b m : Db} {id : Id} {ch : Channel} {provider : String} {r : WebhookRequest}
  {P : Id → Prop}

/-! ## Authentication -/

/-- The request presents the secret of a connection of the organisation to the provider. -/
def Authenticated (s : Db) (r : WebhookRequest) (orgId : Id) : Prop :=
  ∃ (i : Id) (k : MarketingConnection), s.get .connection i = some k ∧ k.orgId = orgId ∧
    k.provider = r.provider ∧ k.secret ∈ r.secrets

def PresentsNone (s : Db) (r : WebhookRequest) : Prop :=
  ∀ (i : Id) (k : MarketingConnection), s.get .connection i = some k → k.secret ∉ r.secrets

/-- **A webhook touches only the tenant it comes from**: it changes the consent of customers of
authenticated organisations alone, and without a secret nothing. -/
def Contained (s : Db) (r : WebhookRequest) : Prop :=
  ∀ o s', (processWebhook r).turn s o s' →
    (∀ id ch, consentOf s' id ch ≠ consentOf s id ch →
      ∃ c, s.get .customer id = some c ∧ Authenticated s r (Customer.orgId c)) ∧
    (PresentsNone s r → s' = s)

/-- **The request finds the customer.** -/
def Reaches (s : Db) (r : WebhookRequest) (id : Id) (c : Customer) : Prop :=
  r.unsubscribes = true ∧ ∃ admits, r.asksFor = some admits ∧ (id, c) ∈ customersWithEmail admits s

theorem mem_customersWithEmail {admits : String → Bool} {c : Customer} :
    (id, c) ∈ customersWithEmail admits s ↔
      s.get .customer id = some c ∧ c.email.any admits = true := Rel.mem_rows

/-! ## What is revoked at most -/

/-- The e-mail consent of some customers of `P` is revoked. -/
def Revokes (P : Id → Prop) (a b : Db) : Prop :=
  ∀ id ch, consentOf b id ch = consentOf a id ch ∨
    P id ∧ ch = .email ∧ consentOf b id ch = .revoked

theorem Revokes.trans (h : Revokes P a b) (h' : Revokes P b m) : Revokes P a m := by
  intro id ch
  rcases h' id ch with he | he
  · rw [he]
    exact h id ch
  · exact Or.inr he

/-- The store once a customer's consent has been revoked. -/
def revokedIn (provider : String) (orgId id : Id) (c : Customer) (a : Db) : Db :=
  { a.set .customer id
      { c with marketingEmailConsent := .revoked, marketingConsentSource := some provider } with
    log := a.log ++ [marketingEntry orgId id .email .revoked provider] }

theorem get_revokedIn (orgId : Id) (c : Customer) (a : Db) :
    (revokedIn provider orgId id c a).get .customer id =
      some { c with marketingEmailConsent := .revoked, marketingConsentSource := some provider } :=
  Rel.get_set_self _ _ _ _

theorem get_revokedIn_ne {i : Id} (orgId : Id) (c : Customer) (a : Db) (h : i ≠ id) :
    (revokedIn provider orgId id c a).get .customer i = a.get .customer i :=
  Rel.get_set_ne (by simp [h])

theorem gives_revokeTx {orgId : Id} {u : Unit} : (revokeTx provider orgId id).gives s u s' ↔
    ∃ c : Customer, s.get .customer id = some c ∧ c.orgId = orgId ∧
      s' = revokedIn provider orgId id c s := by
  constructor
  · intro h
    obtain ⟨c', m, hupdate, hentry⟩ := h.seq
    obtain ⟨c, hc, ho, rfl⟩ := gives_updateCustomer hupdate
    obtain ⟨-, rfl⟩ := gives_createEntry hentry
    exact ⟨c, hc, ho, rfl⟩
  · rintro ⟨c, hc, ho, rfl⟩
    have hkeys : s.clashes .customer (some c)
        { c with marketingEmailConsent := .revoked, marketingConsentSource := some provider } =
          false := Rel.clashes_of_keys_eq rfl
    refine Tx.gives_bind.mpr ⟨_, _, Rel.gives_modify.mpr ⟨c, hc, if_pos ho, hkeys, rfl⟩, ?_⟩
    refine Tx.gives_bind.mpr ⟨_, _, Tx.gives_readOrThrow.mpr ⟨Rel.get_set_self _ _ _ _, rfl⟩, ?_⟩
    exact (Rel.gives_insertLog rfl).mpr rfl

theorem revokes_revokedIn (provider : String) (orgId : Id) {c : Customer} (hP : P id)
    (hc : s.get .customer id = some c) : Revokes P s (revokedIn provider orgId id c s) := by
  intro i ch
  by_cases hi : i = id
  · subst hi
    rw [consentOf_some (get_revokedIn orgId c s), consentOf_some hc]
    cases ch with
    | sms => exact Or.inl rfl
    | email => exact Or.inr ⟨hP, rfl, rfl⟩
  · left
    unfold consentOf
    rw [get_revokedIn_ne orgId c s hi]

theorem keeps_revokeAll_revokes (l : List (Id × Customer)) (hl : ∀ x ∈ l, P x.1)
    (h : Revokes P a s) :
    Call.Keeps (Revokes P a) (fun _ => Revokes P a) (revokeAll provider l) s := by
  induction l generalizing s with
  | nil => exact .pure h h
  | cons x l ih =>
    refine .bind (.tx (Q := fun _ => Revokes P a) h (fun _ m hg => ?_) fun _ => h)
      (fun _ _ hm => ih (fun y hy => hl y (List.mem_cons_of_mem _ hy)) hm) fun _ _ hm => hm
    obtain ⟨c, hc, -, rfl⟩ := gives_revokeTx.mp hg
    have hstep : Revokes P a (revokedIn provider x.2.orgId x.1 c s) :=
      h.trans (revokes_revokedIn _ _ (hl x List.mem_cons_self) hc)
    exact ⟨hstep, hstep⟩

/-- **A request revokes at most what it finds.** -/
theorem keeps_processWebhook_revokes (r : WebhookRequest) (s : Db) :
    Call.Keeps (Revokes (fun id => ∃ c, Reaches s r id c) s)
      (fun _ => Revokes (fun id => ∃ c, Reaches s r id c) s) (processWebhook r) s := by
  have hrefl : Revokes (fun id => ∃ c, Reaches s r id c) s s := fun _ _ => Or.inl rfl
  unfold processWebhook
  split
  · rename_i hu
    cases ha : r.asksFor with
    | none => exact .pure hrefl hrefl
    | some admits =>
      refine .handle (Call.Keeps.post
        (Q := fun _ => Revokes (fun id => ∃ c, Reaches s r id c) s) ?_ fun _ m hm =>
          ⟨fun _ _ => hm, fun _ _ => .pure hm hm⟩)
      refine .read_bind (e := .other) hrefl (.read _) (fun l hl => ?_) fun _ => hrefl
      obtain ⟨rfl, -⟩ := Tx.gives_read.mp hl
      exact keeps_revokeAll_revokes _ (fun x hx => ⟨x.2, hu, admits, ha, hx⟩) hrefl
  · exact .pure hrefl hrefl

/-- A request that finds nothing leaves the store. -/
theorem keeps_processWebhook_still (h : ∀ id c, ¬ Reaches s r id c) :
    Call.Keeps (· = s) (fun _ m => m = s) (processWebhook r) s := by
  unfold processWebhook
  split
  · rename_i hu
    cases ha : r.asksFor with
    | none => exact .pure rfl rfl
    | some admits =>
      refine .handle (Call.Keeps.post (Q := fun _ m => m = s) ?_ fun _ m hm =>
        ⟨fun _ _ => hm, fun _ _ => .pure hm hm⟩)
      refine .read_bind (e := .other) rfl (.read _) (fun l hl => ?_) fun _ => rfl
      obtain ⟨rfl, -⟩ := Tx.gives_read.mp hl
      have hnil : customersWithEmail admits s = [] :=
        List.eq_nil_iff_forall_not_mem.mpr fun x hx => h x.1 x.2 ⟨hu, admits, ha, hx⟩
      rw [hnil]
      exact .pure rfl rfl
  · exact .pure rfl rfl

/-! ## What may be revoked -/

/-- **All that is found may be revoked.** -/
theorem exists_revokeAll (provider : String) (l : List (Id × Customer))
    (hl : ∀ x ∈ l, ∃ c : Customer, s.get .customer x.1 = some c ∧ c.orgId = x.2.orgId) :
    ∃ s', (revokeAll provider l).gives s (.ok ()) s' ∧ s'.log.length = s.log.length + l.length ∧
      (∀ id, consentOf s id .email = .revoked → consentOf s' id .email = .revoked) ∧
        ∀ x ∈ l, consentOf s' x.1 .email = .revoked := by
  induction l generalizing s with
  | nil => exact ⟨s, ⟨rfl, rfl⟩, rfl, fun _ h => h, fun _ hx => absurd hx List.not_mem_nil⟩
  | cons x l ih =>
    obtain ⟨c, hc, ho⟩ := hl x List.mem_cons_self
    -- The others are there still, of the same organisations.
    have hrest : ∀ y ∈ l, ∃ c' : Customer,
        (revokedIn provider x.2.orgId x.1 c s).get .customer y.1 = some c' ∧
          c'.orgId = y.2.orgId := by
      intro y hy
      obtain ⟨c', hc', ho'⟩ := hl y (List.mem_cons_of_mem _ hy)
      by_cases hxy : y.1 = x.1
      · rw [hxy] at hc' ⊢
        rw [hc] at hc'
        cases hc'
        exact ⟨_, get_revokedIn _ _ _, ho'⟩
      · exact ⟨c', (get_revokedIn_ne _ _ _ hxy).trans hc', ho'⟩
    obtain ⟨s', hg, hlen, hkeep, hall⟩ := ih hrest
    have hfirst : consentOf (revokedIn provider x.2.orgId x.1 c s) x.1 .email = .revoked :=
      consentOf_some (get_revokedIn _ _ _)
    refine ⟨s', Call.gives_bind_ok.mpr ⟨(), _, Call.gives_withTx_ok.mpr
      (gives_revokeTx.mpr ⟨c, hc, ho, rfl⟩), hg⟩, ?_, fun i hi => hkeep i ?_, fun y hy => ?_⟩
    · rw [hlen]
      simp only [revokedIn, List.length_append, List.length_cons, List.length_nil]
      omega
    · rcases revokes_revokedIn (P := fun _ => True) provider x.2.orgId trivial hc i .email with
        he | he
      · exact he.trans hi
      · exact he.2.2
    · rcases List.mem_cons.mp hy with rfl | hy
      · exact hkeep _ hfirst
      · exact hall y hy

theorem exists_revoked {c : Customer} (h : Reaches s r id c) :
    ∃ s', (processWebhook r).turn s (some (.ok ())) s' ∧ s.log.length < s'.log.length ∧
      consentOf s' id .email = .revoked := by
  obtain ⟨hu, admits, ha, hmem⟩ := h
  obtain ⟨s', hg, hlen, -, hall⟩ := exists_revokeAll r.provider
    (customersWithEmail admits s) fun x hx => ⟨x.2, (mem_customersWithEmail.mp hx).1, rfl⟩
  refine ⟨s', ?_, ?_, hall _ hmem⟩
  · show (processWebhook r).gives s (.ok ()) s'
    unfold processWebhook
    rw [if_pos hu, ha]
    exact Call.gives_handle_ok (Call.gives_bind_ok.mpr ⟨_, s, Call.gives_withTx_ok.mpr
      (Tx.gives_read.mpr ⟨rfl, rfl⟩), hg⟩)
  · have hpos := List.length_pos_of_mem hmem
    omega

/-! ## Exactly when -/

/-- **The condition on a request**: the customers whose consent it would revoke are of authenticated
organisations, and without a secret it finds none. -/
structure Scoped (s : Db) (r : WebhookRequest) : Prop where
  granted {id : Id} {c : Customer} : Reaches s r id c → c.marketingEmailConsent = .granted →
    Authenticated s r c.orgId
  secret : PresentsNone s r → ∀ id c, ¬ Reaches s r id c

/-- **A marketing webhook touches only the tenant it comes from** exactly where it finds nobody else. -/
theorem contained_iff (s : Db) (r : WebhookRequest) : Contained s r ↔ Scoped s r := by
  constructor
  · intro h
    refine ⟨fun {id c} hr hgranted => ?_, fun hnone id c hr => ?_⟩
    · obtain ⟨s', ht, -, hrev⟩ := exists_revoked hr
      obtain ⟨-, admits, -, hmem⟩ := hr
      have hc : s.get .customer id = some c := (mem_customersWithEmail.mp hmem).1
      have hchanged : consentOf s' id .email ≠ consentOf s id .email := by
        rw [hrev, consentOf_some hc]
        show ConsentAction.revoked ≠ c.marketingEmailConsent
        rw [hgranted]
        decide
      obtain ⟨c', hc', hauth⟩ := (h _ s' ht).1 id .email hchanged
      rw [hc] at hc'
      cases hc'
      exact hauth
    · obtain ⟨s', ht, hlen, -⟩ := exists_revoked hr
      rw [(h _ s' ht).2 hnone] at hlen
      exact absurd hlen (Nat.lt_irrefl _)
  · intro h o s' ht
    refine ⟨fun id ch hne => ?_, fun hnone => ?_⟩
    · rcases ((keeps_processWebhook_revokes r s).turn ht).1 id ch with he | ⟨⟨c, hr⟩, rfl, hrev⟩
      · exact absurd he hne
      · have ⟨_, admits, _, hmem⟩ := hr
        have hc : s.get .customer id = some c := (mem_customersWithEmail.mp hmem).1
        refine ⟨c, hc, h.granted hr ?_⟩
        rw [hrev, consentOf_some hc] at hne
        show c.consent .email = .granted
        cases hce : c.consent .email with
        | granted => rfl
        | revoked => exact absurd hce.symm hne
    · exact ((keeps_processWebhook_still (h.secret hnone)).turn ht).1

def agreed : Customer where
  orgId := 1
  name := "Ada"
  email := some "ada@example.org"
  marketingEmailConsent := .granted

/-- The customer, and no connection. -/
def unconnected : Db where
  tables
    | .customer => AList.singleton 7 agreed
    | .connection => ∅
  log := []

def unsubscription : WebhookRequest where
  provider := "mailchimp"
  type := some "unsubscribe"
  email := .text "ada@example.org"

/-- **Not every webhook touches only the tenant it comes from**: one that presents no secret revokes a
consent. -/
theorem exists_unauthenticated_revocation : ¬ ∀ s r, Contained s r := by
  intro h
  have hreach : Reaches unconnected unsubscription 7 agreed :=
    ⟨by decide +kernel, (· == "ada@example.org"), by
      simp [WebhookRequest.asksFor, unsubscription], mem_customersWithEmail.mpr
        ⟨rfl, by decide +kernel⟩⟩
  exact ((contained_iff _ _).mp (h _ _)).secret (fun _ _ _ => List.not_mem_nil) _ _ hreach

end PatronLoyalty.Consent
