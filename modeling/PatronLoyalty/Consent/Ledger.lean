import PatronLoyalty.Consent.Services

/-!
# Consent backed by the ledger

`latest log id ch`: the action of the latest entry about the marketing consent of a customer for a
channel. `Kept s`: every customer's consent is the one the ledger tells, and no entry is about a customer
that does not exist.

A booking and a ticket write the consent of a customer and make its entries in one transaction
(`Grants`). The console and a CSV import write it and make none, and a ticket may make an entry for a
customer of another organisation, whose consent it does not write. Headline: **`ledger_kept`**, over
requests one after the other that do neither, each of which may die on its way; a run that does is
`exists_unrecorded_consent`.
-/

namespace PatronLoyalty.Consent

open Txn
open Loyalty (Id truthy)

variable {s s' a b m m' : Db} {orgId id i : Id} {ch : Channel} {g : Consents} {source : String}
  {log es : List ConsentLedgerEntry} {c : Customer} {u : Unit} {e : ConsentLedgerEntry}
  {o : Option Id} {data : IssueTicketData} {phone : Option String}

/-! ## The ledger -/

def ConsentLedgerEntry.concerns (e : ConsentLedgerEntry) (id : Id) (ch : Channel) : Bool :=
  e.customerId == id && e.purpose == "marketing" && e.channel == ch.text

def latest (log : List ConsentLedgerEntry) (id : Id) (ch : Channel) : Option ConsentAction :=
  (log.filter (·.concerns id ch)).getLast?.map (·.action)

theorem latest_append (log es : List ConsentLedgerEntry) (id : Id) (ch : Channel) :
    latest (log ++ es) id ch = (latest es id ch).or (latest log id ch) := by
  unfold latest
  rw [List.filter_append, List.getLast?_append]
  cases (es.filter (·.concerns id ch)).getLast? <;> simp

theorem latest_of_others (h : ∀ e ∈ es, e.customerId ≠ id) : latest es id ch = none := by
  have hnil : es.filter (·.concerns id ch) = [] := by
    refine List.filter_eq_nil_iff.mpr fun e he => ?_
    simp [ConsentLedgerEntry.concerns, h e he]
  simp [latest, hnil]

theorem latest_marketingEntry (orgId id : Id) (ch ch' : Channel) (action : ConsentAction)
    (source : String) : latest [marketingEntry orgId id ch action source] id ch' =
      if ch = ch' then some action else none := by
  cases ch <;> cases ch' <;>
    simp [latest, marketingEntry, ConsentLedgerEntry.concerns, Channel.text]

/-! ## Backed consent -/

/-- **The customer's consent for the channel is backed by the ledger.** -/
structure Backed (log : List ConsentLedgerEntry) (id : Id) (c : Customer) (ch : Channel) : Prop where
  granted : c.consent ch = .granted → latest log id ch = some .granted
  entry {x : ConsentAction} : latest log id ch = some x → c.consent ch = x

theorem backed_iff :
    Backed log id c ch ↔ c.consent ch = (latest log id ch).getD .revoked := by
  constructor
  · intro h
    cases hl : latest log id ch with
    | some x => exact h.entry hl
    | none =>
      cases hc : c.consent ch with
      | revoked => rfl
      | granted => exact absurd (h.granted hc) (by simp [hl])
  · intro h
    refine ⟨fun hg => ?_, fun hl => by rw [h, hl]; rfl⟩
    cases hl : latest log id ch with
    | some x =>
      rw [hg, hl] at h
      exact congrArg some h.symm
    | none =>
      rw [hg, hl] at h
      cases h

/-- **Every consent is backed**, and every entry is about a customer that exists. -/
structure Kept (s : Db) : Prop where
  backed {id : Id} {c : Customer} (h : s.get .customer id = some c) (ch : Channel) :
    Backed s.log id c ch
  linked {e : ConsentLedgerEntry} : e ∈ s.log → ∃ c, s.get .customer e.customerId = some c

theorem Kept.latest_none (h : Kept s) (hn : s.get .customer id = none) :
    latest s.log id ch = none := by
  refine latest_of_others fun e he hid => ?_
  obtain ⟨c, hc⟩ := h.linked he
  rw [hid, hn] at hc
  cases hc

/-- The consent in the store, revoked where there is no customer. -/
def consentOf (s : Db) (id : Id) (ch : Channel) : ConsentAction :=
  ((s.get .customer id).map fun (c : Customer) => c.consent ch).getD .revoked

theorem consentOf_some (h : s.get .customer id = some c) :
    consentOf s id ch = c.consent ch := by
  simp [consentOf, h]

theorem consentOf_none (h : s.get .customer id = none) : consentOf s id ch = .revoked := by
  simp [consentOf, h]

theorem consentOf_log (s : Db) (log : List ConsentLedgerEntry) (id : Id) (ch : Channel) :
    consentOf { s with log } id ch = consentOf s id ch := rfl

theorem Kept.consentOf_eq (h : Kept s) (id : Id) (ch : Channel) :
    consentOf s id ch = (latest s.log id ch).getD .revoked := by
  cases hg : s.get .customer id with
  | some c => rw [consentOf_some hg, backed_iff.mp (h.backed hg ch)]
  | none => rw [consentOf_none hg, h.latest_none hg, Option.getD_none]

/-- **What a transaction may do**: to customer `id`, with entries about it. -/
structure Writes (id : Id) (es : List ConsentLedgerEntry) (a b : Db) : Prop where
  others {i : Id} : i ≠ id → b.get .customer i = a.get .customer i
  exists_customer : ∃ c, b.get .customer id = some c
  log : b.log = a.log ++ es
  about {e : ConsentLedgerEntry} : e ∈ es → e.customerId = id

/-- A transaction keeps the ledger if the consent it leaves is what its entries, and the ledger before
them, tell. -/
theorem Kept.writes (h : Kept a) (hw : Writes id es a b)
    (hc : ∀ ch, consentOf b id ch = ((latest es id ch).or (latest a.log id ch)).getD .revoked) :
    Kept b where
  backed {j c} hg ch := by
    rw [backed_iff, hw.log, latest_append]
    by_cases hj : j = id
    · subst hj
      rw [← hc ch, consentOf_some hg]
    · rw [latest_of_others fun e he hid => hj (hid.symm.trans (hw.about he)), Option.none_or]
      exact backed_iff.mp (h.backed (hw.others hj ▸ hg) ch)
  linked {e} he := by
    by_cases hid : e.customerId = id
    · rw [hid]
      exact hw.exists_customer
    · rw [hw.log, List.mem_append] at he
      rw [hw.others hid]
      rcases he with he | he
      · exact h.linked he
      · exact absurd (hw.about he) hid

theorem writes_set (id : Id) (c : Customer) (a : Db) :
    Writes id [] a (a.set .customer id c) where
  others h := Rel.get_set_ne (by simp [h])
  exists_customer := ⟨c, Rel.get_set_self _ _ _ _⟩
  log := by simp
  about he := absurd he List.not_mem_nil

/-! ## Statements -/

theorem gives_theRest (h : theRest.gives s u s') : s' = s := by
  obtain ⟨n, m, hn, h1⟩ := h.seq
  obtain rfl := Tx.gives_input.mp hn
  split at h1
  · exact h1.2
  · exact absurd h1 Tx.gives_throw

theorem gives_createCustomer (h : (createCustomer c).gives s id s') :
    s.get .customer id = none ∧ s' = s.set .customer id c := by
  obtain ⟨n, m, hn, h1⟩ := h.seq
  obtain rfl := Tx.gives_input.mp hn
  obtain ⟨u, m', hi, rfl, rfl⟩ := h1.seq
  obtain ⟨hnone, -, rfl⟩ := Rel.gives_insert.mp hi
  exact ⟨hnone, rfl⟩

theorem gives_updateCustomer {f : Customer → Customer} {c' : Customer}
    (h : (updateCustomer orgId id f).gives s c' s') :
    ∃ c : Customer, s.get .customer id = some c ∧ c.orgId = orgId ∧
      s' = s.set .customer id (f c) := by
  obtain ⟨c, hg, hf, -, rfl⟩ := Rel.gives_modify.mp h
  by_cases ho : c.orgId = orgId
  · rw [if_pos ho] at hf
    cases hf
    exact ⟨c, hg, ho, rfl⟩
  · rw [if_neg ho] at hf
    cases hf

theorem gives_createEntry (h : (createEntry e).gives s u s') :
    (∃ c, s.get .customer e.customerId = some c) ∧ s' = { s with log := s.log ++ [e] } := by
  obtain ⟨c, m, hc, hins⟩ := h.seq
  obtain ⟨hg, rfl⟩ := Tx.gives_readOrThrow.mp hc
  exact ⟨⟨c, hg⟩, (Rel.gives_insertLog rfl).mp hins⟩

def grants (orgId id : Id) (g : Consents) (source : String) : List ConsentLedgerEntry :=
  (if g.sms then [marketingEntry orgId id .sms .granted source] else []) ++
    if g.email then [marketingEntry orgId id .email .granted source] else []

theorem latest_grants : latest (grants orgId id g source) id ch =
    if g.given ch then some .granted else none := by
  rcases g with ⟨sms, email⟩
  cases sms <;> cases email <;> cases ch <;>
    simp [grants, latest, marketingEntry, ConsentLedgerEntry.concerns, Channel.text, Consents.given]

theorem customerId_of_mem_grants (h : e ∈ grants orgId id g source) :
    e.customerId = id := by
  unfold grants at h
  rcases List.mem_append.mp h with h | h
  · split at h
    · exact List.mem_singleton.mp h ▸ rfl
    · cases h
  · split at h
    · exact List.mem_singleton.mp h ▸ rfl
    · cases h

theorem gives_logConsent {given : Bool} (h : (logConsent given e).gives s u s') :
    s' = { s with log := s.log ++ if given then [e] else [] } ∧
      (given = true → ∃ c, s.get .customer e.customerId = some c) := by
  cases given with
  | true =>
    obtain ⟨hc, rfl⟩ := gives_createEntry h
    exact ⟨rfl, fun _ => hc⟩
  | false =>
    obtain ⟨-, rfl⟩ := h
    exact ⟨by simp, fun hf => by cases hf⟩

theorem gives_logConsents (h : (logConsents orgId id g source).gives s u s') :
    s' = { s with log := s.log ++ grants orgId id g source } ∧
      (g.sms = true ∨ g.email = true → ∃ c, s.get .customer id = some c) := by
  obtain ⟨u1, m, h1, h2⟩ := h.seq
  obtain ⟨rfl, hs⟩ := gives_logConsent h1
  obtain ⟨rfl, he⟩ := gives_logConsent h2
  refine ⟨by simp [grants], ?_⟩
  rintro (hg | hg)
  · exact hs hg
  · exact he hg

/-! ## Consents that are given with a booking or a ticket -/

/-- **The consents are written into the customer**, which may be new. -/
structure Upserts (id : Id) (g : Consents) (a b : Db) : Prop where
  writes : Writes id [] a b
  consent (ch : Channel) : consentOf b id ch =
    if g.given ch then .granted else consentOf a id ch

theorem consent_withMarketing (g : Consents) (source : Option String) (c : Customer) (ch : Channel) :
    (withMarketing g source c).consent ch = if g.given ch then .granted else c.consent ch := by
  cases ch <;> rfl

theorem upserts_set {c' : Customer} {source : Option String} (hg : a.get .customer id = some c)
    (hc : ∀ ch, c'.consent ch = c.consent ch) :
    Upserts id g a (a.set .customer id (withMarketing g source c')) where
  writes := writes_set id _ a
  consent ch := by
    rw [consentOf_some (Rel.get_set_self _ _ _ _), consent_withMarketing, consentOf_some hg, hc]

theorem upserts_create {source : Option String} (hg : a.get .customer id = none)
    (hc : ∀ ch, c.consent ch = .revoked) :
    Upserts id g a (a.set .customer id (withMarketing g source c)) where
  writes := writes_set id _ a
  consent ch := by
    rw [consentOf_some (Rel.get_set_self _ _ _ _), consent_withMarketing, consentOf_none hg, hc]

/-- **The consents and their entries.** -/
theorem Kept.upserts (h : Kept a) (hu : Upserts id g a b) :
    Kept { b with log := b.log ++ grants orgId id g source } := by
  have hw : Writes id (grants orgId id g source) a
      { b with log := b.log ++ grants orgId id g source } :=
    ⟨hu.writes.others, hu.writes.exists_customer, by simp [hu.writes.log], customerId_of_mem_grants⟩
  refine h.writes hw fun ch => ?_
  rw [consentOf_log, hu.consent ch, latest_grants, h.consentOf_eq]
  cases g.given ch <;> simp

/-- Entries for consents the customer has given already. -/
theorem Kept.again (h : Kept a) (hg : ∀ ch, g.given ch = true → latest a.log id ch = some .granted)
    (hex : g.sms = true ∨ g.email = true → ∃ c, a.get .customer id = some c) :
    Kept { a with log := a.log ++ grants orgId id g source } := by
  cases hc : a.get .customer id with
  | some c =>
    refine h.upserts (a := a) ⟨⟨fun _ => rfl, ⟨c, hc⟩, by simp, fun he => absurd he
      List.not_mem_nil⟩, fun ch => ?_⟩
    cases hgiven : g.given ch with
    | true => rw [h.consentOf_eq, hg ch hgiven]; rfl
    | false => rfl
  | none =>
    have hnil : grants orgId id g source = [] := by
      have hno : ¬ (g.sms = true ∨ g.email = true) := fun hge => by
        obtain ⟨c, hc'⟩ := hex hge
        rw [hc] at hc'
        cases hc'
      simp only [not_or, Bool.not_eq_true] at hno
      simp [grants, hno.1, hno.2]
    rw [hnil, List.append_nil]
    exact h

/-- Found and updated, or created. -/
theorem gives_upsertCustomer {p : Customer → Bool} {src : Option String}
    {update : Customer → Customer → Customer} {new : Customer}
    (hup : ∀ found c ch, (update found c).consent ch = c.consent ch)
    (hnew : ∀ ch, new.consent ch = .revoked)
    (h : (upsertCustomer orgId p g src update new).gives s o s') :
    ∃ id, o = some id ∧ Upserts id g s s' := by
  obtain ⟨found, m, hfound, hrest⟩ := h.seq
  obtain ⟨rfl, -⟩ := Tx.gives_findFirst.mp hfound
  rcases found with - | ⟨id, found⟩
  · obtain ⟨id, m', hcreate, rfl, rfl⟩ := hrest.seq
    obtain ⟨hnone, rfl⟩ := gives_createCustomer hcreate
    exact ⟨id, rfl, upserts_create hnone hnew⟩
  · obtain ⟨c', m', hupdate, rfl, rfl⟩ := hrest.seq
    obtain ⟨c, hg, -, rfl⟩ := gives_updateCustomer hupdate
    exact ⟨id, rfl, upserts_set hg (hup found c)⟩

/-- The transaction makes the entries of the consents it writes. -/
def Records (g : Consents) (o : Option Id) (a b : Db) : Prop :=
  (o = none ∧ b = a) ∨ ∃ id, o = some id ∧ Upserts id g a b

theorem gives_customerForBooking {data : AppointmentBookingInput}
    (h : (customerForBooking orgId data phone).gives s o s') :
    Records data.consents o s s' := by
  unfold customerForBooking at h
  split at h
  · refine Or.inr (gives_upsertCustomer (fun _ _ ch => ?_) (fun ch => ?_) h)
    all_goals cases ch <;> rfl
  · refine Or.inr (gives_upsertCustomer (fun _ _ ch => ?_) (fun ch => ?_) h)
    all_goals cases ch <;> rfl
  · exact Or.inl h

theorem gives_customerByPhone {phone : String}
    (h : (customerByPhone orgId data phone).gives s o s') : ∃ id, o = some id ∧
      Upserts id data.consents s s' := by
  refine gives_upsertCustomer (fun _ _ ch => ?_) (fun ch => ?_) h
  all_goals cases ch <;> rfl

theorem gives_customerByName {name : String}
    (h : (customerByName orgId data name).gives s o s') : ∃ id, o = some id ∧
      Upserts id data.consents s s' := by
  obtain ⟨id, m, hcreate, rfl, rfl⟩ := h.seq
  obtain ⟨hnone, rfl⟩ := gives_createCustomer hcreate
  exact ⟨_, rfl, upserts_create hnone fun ch => by cases ch <;> rfl⟩

theorem Kept.logConsentsOf (h : Kept a) (hr : Records g o a b)
    (hl : (logConsentsOf orgId o g source).gives b u s') : Kept s' := by
  rcases hr with ⟨rfl, rfl⟩ | ⟨id, rfl, hu⟩
  · obtain ⟨-, rfl⟩ := hl
    exact h
  · obtain ⟨rfl, -⟩ := gives_logConsents hl
    exact h.upserts hu

/-- **A booking** keeps the ledger. -/
theorem Kept.bookTx {data : AppointmentBookingInput} (h : Kept s)
    (hg : (bookTx orgId data phone).gives s u s') : Kept s' := by
  obtain ⟨u1, m1, h1, hg1⟩ := hg.seq
  obtain ⟨o, m2, h2, hg2⟩ := hg1.seq
  obtain ⟨u3, m3, h3, h4⟩ := hg2.seq
  obtain rfl := gives_theRest h1
  obtain rfl := gives_theRest h4
  exact h.logConsentsOf (gives_customerForBooking h2) h3

/-! ## Tickets -/

/-- **The condition on a ticket**: the request names no customer of another organisation, or the consents
it carries are given already. -/
def NamesOwn (s : Db) (orgId : Id) (data : IssueTicketData) : Prop :=
  ∀ id c, data.customerId = some id → s.get .customer id = some c → c.orgId ≠ orgId →
    ∀ ch, data.consents.given ch = true → latest s.log id ch = some .granted

theorem gives_customerById (h : (customerById orgId data id).gives s o s') : o = some id ∧
      (Upserts id data.consents s s' ∨
        s' = s ∧ ∀ c, s.get .customer id = some c → c.orgId ≠ orgId) := by
  obtain ⟨found, m, hfound, hrest⟩ := h.seq
  obtain ⟨hf, rfl⟩ := Tx.gives_read.mp hfound
  cases found with
  | none =>
    obtain ⟨rfl, hs⟩ := hrest
    refine ⟨rfl, Or.inr ⟨hs, fun c hc ho => ?_⟩⟩
    have hsome : (m.get .customer id).filter (fun (c : Customer) => c.orgId == orgId) = some c := by
      rw [hc]
      simp [Option.filter, ho]
    rw [← hf] at hsome
    cases hsome
  | some c =>
    have hc : m.get .customer id = some c := (Option.filter_eq_some_iff.mp hf.symm).1
    by_cases hg : (data.consents.sms || data.consents.email) = true
    · simp only [hg, if_true] at hrest
      obtain ⟨c', m', hupdate, rfl, rfl⟩ := hrest.seq
      obtain ⟨c0, hc0, -, rfl⟩ := gives_updateCustomer hupdate
      exact ⟨rfl, Or.inl (upserts_set hc0 fun _ => rfl)⟩
    · simp only [hg] at hrest
      obtain ⟨rfl, rfl⟩ := hrest
      simp only [Bool.or_eq_true, not_or, Bool.not_eq_true] at hg
      refine ⟨rfl, Or.inl ⟨⟨fun _ => rfl, ⟨c, hc⟩, by simp, fun he => absurd he
        List.not_mem_nil⟩, fun ch => ?_⟩⟩
      cases ch <;> simp [Consents.given, hg.1, hg.2]

/-- **A ticket** keeps the ledger. -/
theorem Kept.issueTicketCore (h : Kept s) (hn : NamesOwn s orgId data)
    (hg : (issueTicketCore orgId data phone).gives s u s') : Kept s' := by
  obtain ⟨u1, m1, h1, hg1⟩ := hg.seq
  obtain ⟨o, m2, h2, hg2⟩ := hg1.seq
  obtain ⟨u3, m3, h3, h4⟩ := hg2.seq
  obtain rfl := gives_theRest h1
  obtain rfl := gives_theRest h4
  unfold customerForIssue at h2
  split at h2
  · rename_i id hid
    obtain ⟨rfl, hu | ⟨rfl, ho⟩⟩ := gives_customerById h2
    · exact h.logConsentsOf (Or.inr ⟨id, rfl, hu⟩) h3
    · obtain ⟨rfl, hex⟩ := gives_logConsents h3
      refine h.again (fun ch hgiven => ?_) hex
      obtain ⟨c, hc⟩ := hex (by
        cases ch
        · exact Or.inl hgiven
        · exact Or.inr hgiven)
      exact hn id c hid hc (ho c hc) ch hgiven
  · exact h.logConsentsOf (Or.inr (gives_customerByPhone h2)) h3
  · exact h.logConsentsOf (Or.inr (gives_customerByName h2)) h3
  · exact h.logConsentsOf (Or.inl h2) h3

/-! ## Writes without an entry -/

/-- A customer whose consent stays what the ledger tells. -/
theorem Kept.set (h : Kept a)
    (hc : ∀ ch, c.consent ch = (latest a.log id ch).getD .revoked) : Kept (a.set .customer id c) := by
  refine h.writes (writes_set id c a) fun ch => ?_
  rw [consentOf_some (Rel.get_set_self _ _ _ _), hc ch]
  rfl

theorem Kept.create (h : Kept s) (hc : ∀ ch, c.consent ch = .revoked)
    (hg : (createCustomer c).gives s id s') : Kept s' := by
  obtain ⟨hnone, rfl⟩ := gives_createCustomer hg
  refine h.set fun ch => ?_
  rw [hc ch, h.latest_none hnone, Option.getD_none]

def CreateCustomerData.consent (data : CreateCustomerData) : Channel → Option Bool
  | .sms => data.marketingSmsConsent
  | .email => data.marketingEmailConsent

theorem consent_customer (orgId : Id) (data : CreateCustomerData) (ch : Channel) :
    (data.customer orgId).consent ch = grantedIf (data.consent ch == some true) := by
  cases ch <;> rfl

def CustomerImportRow.matched (data : CustomerImportRow) (orgId : Id) (s : Db) :
    List (Id × Customer) :=
  let foundBy (value : Option String) (p : String → Customer → Bool) :=
    ((truthy value).map fun v => customersWhere orgId (p v) s).getD []
  let byExt := foundBy data.externalId fun e c => c.externalId == some e
  let byEmail := foundBy data.email fun e c => c.email == some e
  if byExt ≠ [] then byExt else if byEmail ≠ [] then byEmail else foundBy data.phone phoneMatches

theorem gives_findBy {value : Option String} {p : String → Customer → Bool}
    {o : Option (Id × Customer)} (h : (findBy orgId value p).gives s o s') : s' = s ∧
      (o = none ∧ ((truthy value).map fun v => customersWhere orgId (p v) s).getD [] = [] ∨
        ∃ x ∈ ((truthy value).map fun v => customersWhere orgId (p v) s).getD [], o = some x) := by
  unfold findBy at h
  cases hv : truthy value with
  | none =>
    rw [hv] at h
    exact ⟨h.2, Or.inl ⟨h.1, rfl⟩⟩
  | some v =>
    rw [hv] at h
    exact Tx.gives_findFirst.mp h

theorem gives_resolveMatch {data : CustomerImportRow} {o : Option (Id × Customer)}
    (h : (resolveMatch orgId data).gives s o s') : s' = s ∧
      (o = none ∧ data.matched orgId s = [] ∨ ∃ x ∈ data.matched orgId s, o = some x) := by
  unfold CustomerImportRow.matched
  obtain ⟨byExt, m, h1, hrest⟩ := h.seq
  obtain ⟨rfl, ⟨rfl, hnil⟩ | ⟨x, hx, rfl⟩⟩ := gives_findBy h1
  · obtain ⟨byEmail, m', h2, hrest'⟩ := hrest.seq
    obtain ⟨rfl, ⟨rfl, hnil'⟩ | ⟨x, hx, rfl⟩⟩ := gives_findBy h2
    · simp only [hnil, hnil', ne_eq, not_true_eq_false, if_false]
      exact gives_findBy hrest'
    · obtain ⟨rfl, rfl⟩ := hrest'
      refine ⟨rfl, Or.inr ⟨x, ?_, rfl⟩⟩
      simp only [hnil, ne_eq, not_true_eq_false, if_false, List.ne_nil_of_mem hx,
        not_false_eq_true, if_true]
      exact hx
  · obtain ⟨rfl, rfl⟩ := hrest
    refine ⟨rfl, Or.inr ⟨x, ?_, rfl⟩⟩
    simp only [ne_eq, List.ne_nil_of_mem hx, not_false_eq_true, if_true]
    exact hx

/-! ## Requests -/

theorem keeps_mayRefuse (h : Kept s) : Call.Keeps Kept (fun _ m => m = s) mayRefuse s := by
  refine .bind (.input (Q := fun _ m => m = s) h fun _ => rfl) (fun n m hm => ?_)
    fun _ _ hm => hm
  subst hm
  split
  · exact .pure h rfl
  · exact .throw h rfl

/-- **Staff**: no consent with a customer that is created. -/
theorem keeps_create {data : CreateCustomerData} (h : Kept s)
    (hc : customersWhere orgId data.duplicates s = [] → ∀ ch, data.consent ch ≠ some true) :
    Call.Keeps Kept (fun _ => Kept) (CustomerService.create orgId data) s := by
  refine .bind (keeps_mayRefuse h) (fun _ m hm => ?_) fun _ m hm => hm ▸ h
  subst hm
  refine .read_bind (e := .other) h (.pick fun _ => .read _) (fun o ho => ?_) fun _ => h
  cases o with
  | some x => exact .throw h h
  | none =>
    refine .tx h (fun id m' hg => ?_) fun _ => h
    have hnone : customersWhere orgId data.duplicates m = [] := by
      obtain ⟨-, ⟨-, hnil⟩ | ⟨x, -, hx⟩⟩ := Tx.gives_findFirst.mp ho
      · exact hnil
      · cases hx
    have hk : Kept m' := h.create (fun ch => by
      rw [consent_customer]
      simp [grantedIf, hc hnone ch]) hg
    exact ⟨hk, hk⟩

/-- **The condition on a row** of an import: it gives no consent to a customer it creates, and writes of
the consent of one it updates what the ledger tells. -/
structure RowRecorded (s : Db) (orgId : Id) (data : CustomerImportRow) : Prop where
  created : data.matched orgId s = [] → ∀ ch, data.consent ch ≠ some true
  updated {x : Id × Customer} (hx : x ∈ data.matched orgId s) {ch : Channel} {given : Bool} :
    data.consent ch = some given → (given = true ↔ latest s.log x.1 ch = some .granted)

theorem consent_patch (data : CustomerImportRow) (c : Customer) (ch : Channel) :
    (data.patch c).consent ch = ((data.consent ch).map grantedIf).getD (c.consent ch) := by
  cases ch <;> rfl

theorem Kept.applyUpdate {data : CustomerImportRow} {x : Id × Customer} (h : Kept s)
    (hr : RowRecorded s orgId data) (hx : x ∈ data.matched orgId s)
    (hg : (applyUpdate orgId x.1 data).gives s u s') : Kept s' := by
  obtain ⟨c', m, hupdate, rfl, rfl⟩ := hg.seq
  obtain ⟨c, hc, -, rfl⟩ := gives_updateCustomer hupdate
  refine h.set fun ch => ?_
  rw [consent_patch, ← h.consentOf_eq, consentOf_some hc]
  cases hd : data.consent ch with
  | none => rfl
  | some given =>
    have hiff := hr.updated hx hd
    rw [← consentOf_some hc, h.consentOf_eq]
    cases given with
    | true =>
      rw [hiff.mp rfl]
      rfl
    | false =>
      cases hl : latest s.log x.1 ch with
      | none => rfl
      | some a =>
        cases a with
        | revoked => rfl
        | granted => exact absurd (hiff.mpr hl) (by decide)

/-- **A row of an import.** -/
theorem keeps_importPatron {data : CustomerImportRow} (h : Kept s) (hr : RowRecorded s orgId data) :
    Call.Keeps Kept (fun _ => Kept) (importPatron orgId data) s := by
  have hrest : ∀ {m : Db} (y : RowResult), Kept m →
      Call.Keeps Kept (fun _ => Kept) (mayRefuse.bind fun _ => Call.pure y) m := fun y hm =>
    .bind (keeps_mayRefuse hm) (fun _ _ he => .pure (he ▸ hm) (he ▸ hm)) fun _ _ he => he ▸ hm
  have hreads : Confined (fun _ => true) Err.other alone (fun _ _ : Db => False)
      (resolveMatch orgId data) := by
    have hfind : ∀ v (p : String → Customer → Bool), Confined (fun _ => true) Err.other alone
        (fun _ _ : Db => False) (findBy orgId v p) := by
      intro v p
      unfold findBy
      split
      · exact .pure _
      · exact .pick fun _ => .read _
    refine .bind (hfind _ _) fun byExt => ?_
    cases byExt with
    | some x => exact .pure _
    | none =>
      refine .bind (hfind _ _) fun byEmail => ?_
      cases byEmail with
      | some x => exact .pure _
      | none => exact hfind _ _
  refine .read_bind h hreads (fun o ho => ?_) fun _ => h
  obtain ⟨-, ⟨rfl, hnil⟩ | ⟨x, hx, rfl⟩⟩ := gives_resolveMatch ho
  · refine .bind (.tx (Q := fun _ => Kept) h (fun id m hg => ?_) fun _ => h)
      (fun id m hm => hrest _ hm) fun _ _ hm => hm
    have hk : Kept m := h.create (fun ch => by
      have hno := hr.created hnil ch
      cases ch <;> simp_all [Customer.consent, CustomerImportRow.consent, grantedIf]) hg
    exact ⟨hk, hk⟩
  · refine .bind (.tx (Q := fun _ => Kept) h (fun u m hg => ?_) fun _ => h)
      (fun u m hm => hrest _ hm) fun _ _ hm => hm
    exact ⟨h.applyUpdate hr hx hg, h.applyUpdate hr hx hg⟩

theorem keeps_importOneRow {seenKeys : List String} {data : CustomerImportRow} (h : Kept s)
    (hr : (fileDupKey data).any seenKeys.contains = false → RowRecorded s orgId data) :
    Call.Keeps Kept (fun _ => Kept) (importOneRow orgId seenKeys data) s := by
  unfold importOneRow
  split
  · exact .pure h h
  · rename_i hnew
    refine .handle ((keeps_importPatron h (hr (by simpa using hnew))).post fun r m hm => ?_)
    exact ⟨fun _ _ => hm, fun _ _ => .pure hm hm⟩

/-- **A booking.** -/
theorem keeps_book {data : AppointmentBookingInput} (h : Kept s) :
    Call.Keeps Kept (fun _ => Kept) (AppointmentBookingService.book orgId data phone) s := by
  refine .bind (keeps_mayRefuse h) (fun _ m hm => ?_) fun _ _ hm => hm ▸ h
  subst hm
  dsimp only
  split
  · exact .throw h h
  · exact .tx h (fun _ _ hg => ⟨h.bookTx hg, h.bookTx hg⟩) fun _ => h

/-- **A ticket.** -/
theorem keeps_issueTicket (h : Kept s) (hn : NamesOwn s orgId data) :
    Call.Keeps Kept (fun _ => Kept) (TicketIssuanceService.issueTicket orgId data) s := by
  unfold TicketIssuanceService.issueTicket
  dsimp only
  split
  · exact .throw h h
  · refine .bind (keeps_mayRefuse h) (fun _ m hm => ?_) fun _ _ hm => hm ▸ h
    subst hm
    exact .tx h (fun _ _ hg => ⟨h.issueTicketCore hn hg, h.issueTicketCore hn hg⟩) fun _ => h

theorem Kept.revokeTx {provider : String} (h : Kept s)
    (hg : (revokeTx provider orgId id).gives s u s') : Kept s' := by
  obtain ⟨c', m, hupdate, hentry⟩ := hg.seq
  obtain ⟨c, hc, -, rfl⟩ := gives_updateCustomer hupdate
  obtain ⟨-, rfl⟩ := gives_createEntry hentry
  have hw := writes_set id
    { c with marketingEmailConsent := .revoked, marketingConsentSource := some provider } s
  refine h.writes ⟨hw.others, hw.exists_customer, rfl, fun he => List.mem_singleton.mp he ▸ rfl⟩
    fun ch => ?_
  rw [consentOf_log, consentOf_some (Rel.get_set_self _ _ _ _)]
  rw [latest_marketingEntry]
  cases ch with
  | email => rfl
  | sms => exact (consentOf_some hc).symm.trans (h.consentOf_eq id .sms)

theorem keeps_revokeAll {provider : String} (l : List (Id × Customer)) (h : Kept s) :
    Call.Keeps Kept (fun _ => Kept) (revokeAll provider l) s := by
  induction l generalizing s with
  | nil => exact .pure h h
  | cons x l ih =>
    exact .bind (.tx (Q := fun _ => Kept) h (fun _ _ hg => ⟨h.revokeTx hg, h.revokeTx hg⟩)
      fun _ => h) (fun _ _ hm => ih hm) fun _ _ hm => hm

/-- **A webhook.** -/
theorem keeps_processWebhook {r : WebhookRequest} (h : Kept s) :
    Call.Keeps Kept (fun _ => Kept) (processWebhook r) s := by
  unfold processWebhook
  split
  · cases r.asksFor with
    | none => exact .pure h h
    | some admits =>
      refine .handle (Call.Keeps.post (Q := fun _ => Kept) ?_ fun r m hm =>
        ⟨fun _ _ => hm, fun _ _ => .pure hm hm⟩)
      exact .read_bind (e := .other) h (.read _) (fun l _ => keeps_revokeAll l h) fun _ => h
  · exact .pure h h

/-! ## Runs -/

inductive Request
  | create (orgId : Id) (data : CreateCustomerData)
  | importRow (orgId : Id) (seenKeys : List String) (data : CustomerImportRow)
  | book (orgId : Id) (data : AppointmentBookingInput) (customerPhone : Option String)
  | issueTicket (orgId : Id) (data : IssueTicketData)
  | webhook (request : WebhookRequest)

def Request.run : Request → CCall Unit
  | .create orgId data => (CustomerService.create orgId data).bind fun _ => .pure ()
  | .importRow orgId seenKeys data => (importOneRow orgId seenKeys data).bind fun _ => .pure ()
  | .book orgId data customerPhone => AppointmentBookingService.book orgId data customerPhone
  | .issueTicket orgId data => TicketIssuanceService.issueTicket orgId data
  | .webhook request => processWebhook request

/-- **The condition on a request**: it writes no consent that the ledger does not tell, and makes no entry
for consent it does not write. -/
def RecordsConsent (s : Db) : Request → Prop
  | .create orgId data =>
    customersWhere orgId data.duplicates s = [] → ∀ ch, data.consent ch ≠ some true
  | .importRow orgId seenKeys data =>
    (fileDupKey data).any seenKeys.contains = false → RowRecorded s orgId data
  | .issueTicket orgId data => NamesOwn s orgId data
  | .book .. | .webhook _ => True

/-- **One request** keeps the ledger. -/
theorem keeps_run {r : Request} (h : Kept s) (hr : RecordsConsent s r) :
    Call.Keeps Kept (fun _ => Kept) r.run s := by
  have hunit : ∀ {α : Type} {c : CCall α}, Call.Keeps Kept (fun _ => Kept) c s →
      Call.Keeps Kept (fun _ => Kept) (c.bind fun _ => .pure ()) s := fun hc =>
    hc.bind (fun _ _ hm => .pure hm hm) fun _ _ hm => hm
  cases r with
  | create orgId data => exact hunit (keeps_create h hr)
  | importRow orgId seenKeys data => exact hunit (keeps_importOneRow h hr)
  | book orgId data customerPhone => exact keeps_book h
  | issueTicket orgId data => exact keeps_issueTicket h hr
  | webhook request => exact keeps_processWebhook h

/-- **Marketing consent is backed by the ledger** in every run of requests that record it, which may
fail or die on their way. -/
theorem ledger_kept {l : List (Request × Option (Except Err Unit))} (h : Kept s)
    (hrun : InTurn Request.run (fun _ m r _ => RecordsConsent m r) s l s') {c : Customer}
    (hc : s'.get .customer id = some c) (ch : Channel) :
    (c.consent ch = .granted → latest s'.log id ch = some .granted) ∧
      ∀ x, latest s'.log id ch = some x → c.consent ch = x := by
  have hk : Kept s' := hrun.keeps (I := fun _ m => Kept m) h fun _ _ _ _ _ hm hP ht =>
    ((keeps_run hm hP).turn ht).1
  exact ⟨(hk.backed hc ch).granted, fun _ => (hk.backed hc ch).entry⟩

/-! ## A patron of the console -/

/-- Nobody. -/
def noCustomers : Db where
  tables _ := ∅
  log := []

theorem kept_noCustomers : Kept noCustomers where
  backed h := by cases h
  linked h := absurd h List.not_mem_nil

/-- Inputs that let everything pass, with a new id. -/
def inputs : Env := ⟨fun n => if n = 3 then 7 else 0, 0⟩

def byBooking : Request :=
  .book 1 { customerName := "Ada", consents := { sms := true } } (some "+15550001234")

def booked : Customer where
  orgId := 1
  name := "Ada"
  phone := some "+15550001234"
  marketingSmsConsent := .granted
  marketingConsentSource := some "appointment_booking"

def after (r : Request) : Db := (r.run.eval inputs 0 noCustomers).db

theorem inTurn_after {P : Db → Request → Prop} (r : Request) (hr : P noCustomers r) :
    InTurn Request.run (fun _ m r _ => P m r) noCustomers
      [(r, some (r.run.eval inputs 0 noCustomers).answer)] (after r) :=
  InTurn.eval .nil inputs r hr

theorem ledger_kept_booking :
    (booked.consent .sms = .granted → latest (after byBooking).log 7 .sms = some .granted) ∧
      ∀ x, latest (after byBooking).log 7 .sms = some x → booked.consent .sms = x :=
  ledger_kept kept_noCustomers (inTurn_after byBooking trivial) (by decide +kernel) .sms

def byStaff : Request := .create 1 { name := "Ada", marketingSmsConsent := some true }

def byStaffCustomer : Customer where
  orgId := 1
  name := "Ada"
  marketingSmsConsent := .granted
  marketingConsentSource := some "staff_crm"

/-- **Not every consent is in the ledger.** -/
theorem exists_unrecorded_consent : ¬ ∀ (s s' : Db) (l : List (Request × Option (Except Err Unit)))
    (id : Id) (c : Customer) (ch : Channel), Kept s →
      InTurn Request.run (fun _ _ _ _ => True) s l s' → s'.get .customer id = some c →
      (c.consent ch = .granted → latest s'.log id ch = some .granted) ∧
        ∀ x, latest s'.log id ch = some x → c.consent ch = x := by
  intro h
  have hnone : (after byStaff).log = [] := by decide +kernel
  obtain ⟨c, hc, hgranted⟩ : ∃ c, (after byStaff).get .customer 0 = some c ∧
      Customer.consent c .sms = .granted := ⟨byStaffCustomer, by decide +kernel, rfl⟩
  have hl := (h _ _ _ 0 c .sms kept_noCustomers (inTurn_after byStaff trivial) hc).1 hgranted
  rw [hnone] at hl
  cases hl

end PatronLoyalty.Consent
