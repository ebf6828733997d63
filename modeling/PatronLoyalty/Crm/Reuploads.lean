import PatronLoyalty.Crm.Patrons

/-!
# Files that are uploaded again

`Uploads orgId file P s₀ i ok patrons s`: the file has been uploaded, from the store `s₀` on, again and
again; of the last upload `i` rows are through, and all of them were accepted if `ok`. `patrons` are the
customers the import has created, by the index of the row, and every row that was processed meets `P`.
Any row may fail, or die with the server, at any point (`RowRun`).

`homesOf ref` are the customers to which a failure-free upload applied its rows: existing ones, or those
it created. `Careful`: no row fails once it has written a customer, none dies once it has created one that
is still to be credited, and every row finds its home, or creates it.

Headline: **`import_reuploadable`**, in uploads that are careful a row that is reported as an error has
changed nothing, and once every row is accepted the customers and their points are those of the
failure-free upload. `uploads_of_history`: what the code does with a file that is uploaded in turn is such
a run. `exists_lost_opening` are two uploads that are not careful, and lose an opening balance.
-/

namespace PatronLoyalty.Crm

open Txn Loyalty Relation

/-! ## Uploads -/

/-- The keys that have been seen before row `i`. -/
def seenBefore (file : List FileRow) (i : ℕ) : List String :=
  (file.take i).foldl (fun seen row => seenAfter seen row.2) []

/-- The customers the import has created, by the index of the row. -/
abbrev Patrons := ℕ → Option Id

def Patrons.after (patrons : Patrons) (i : ℕ) : Course → Patrons
  | .creating id | .created id => Function.update patrons i (some id)
  | .stopped | .updating _ | .updated _ => patrons

def RowResult.accepted : RowResult → Bool
  | .created _ | .updated _ => true
  | .error _ => false

/-- **The file is uploaded** again and again. -/
inductive Uploads (orgId : Id) (file : List FileRow)
    (P : ℕ → Patrons → CustomerImportRow → Option RowResult → Course → Prop) (s₀ : Db) :
    ℕ → Bool → Patrons → Db → Prop
  | start : Uploads orgId file P s₀ 0 true (fun _ => none) s₀
  /-- The next upload, wherever the last one has come. -/
  | again {i : ℕ} {ok : Bool} {patrons : Patrons} {s : Db}
      (h : Uploads orgId file P s₀ i ok patrons s) : Uploads orgId file P s₀ 0 true patrons s
  | refused {i : ℕ} {ok : Bool} {patrons : Patrons} {s : Db} {row : FileRow}
      (h : Uploads orgId file P s₀ i ok patrons s) (hrow : file[i]? = some row)
      (hr : refused (seenBefore file i) row.2 = true) :
    Uploads orgId file P s₀ (i + 1) false patrons s
  | row {i n : ℕ} {ok : Bool} {patrons : Patrons} {s s' : Db} {data : CustomerImportRow}
      {result : RowResult} {course : Course} (h : Uploads orgId file P s₀ i ok patrons s)
      (hrow : file[i]? = some (n, .ok data)) (hk : repeats (seenBefore file i) data = false)
      (hrun : RowRun orgId data s course (some result) s')
      (hP : P i patrons data (some result) course) :
    Uploads orgId file P s₀ (i + 1) (ok && result.accepted) (patrons.after i course) s'
  /-- The server dies with the row. -/
  | died {i n : ℕ} {ok : Bool} {patrons : Patrons} {s s' : Db} {data : CustomerImportRow}
      {course : Course} (h : Uploads orgId file P s₀ i ok patrons s)
      (hrow : file[i]? = some (n, .ok data)) (hk : repeats (seenBefore file i) data = false)
      (hrun : RowRun orgId data s course none s') (hP : P i patrons data none course) :
    Uploads orgId file P s₀ 0 true (patrons.after i course) s'

/-! ## Homes -/

/-- The customer a row is about: an existing one, or the one a row creates. -/
inductive Home
  | existing (id : Id)
  | fresh (row : ℕ)
  deriving DecidableEq, Repr

/-- What the lookup finds is the home of the row; without a home it is the row's to create. -/
def Meets (home : ℕ → Home) (i : ℕ) (patrons : Patrons) : Option Id → Prop
  | some id => home i = .existing id ∧ (∀ j, patrons j ≠ some id) ∨
      ∃ j, home i = .fresh j ∧ patrons j = some id
  | none => home i = .fresh i ∧ patrons i = none

/-- **A careful row** does not fail once it has written a customer, does not die before a customer it has
created is credited, and finds its home. -/
def Careful (home : ℕ → Home) (i : ℕ) (patrons : Patrons) (data : CustomerImportRow)
    (result : Option RowResult) : Course → Prop
  | .stopped => True
  | .updating id => result = none ∧ Meets home i patrons (some id)
  | .updated id => Meets home i patrons (some id)
  | .creating _ => result = none ∧ data.openingPoints.getD 0 ≤ 0 ∧ Meets home i patrons none
  | .created _ => Meets home i patrons none

def homesOf (results : List RowResult) (i : ℕ) : Home :=
  match results[i]? with
  | some (.updated id) =>
    match (List.range i).find? fun j => results[j]? == some (.created id) with
    | some j => .fresh j
    | none => .existing id
  | _ => .fresh i

/-- **The same customers with the same points**, up to the identifiers of those that were created. -/
def SameImport (s s' : Db) : Prop :=
  ∃ f : Id → Id, (∀ (id : Id) (c : Customer), s.get .customer id = some c →
      s'.get .customer (f id) = some c ∧ pointsOf s' (f id) = pointsOf s id) ∧
    (∀ (i j : Id) (c d : Customer), s.get .customer i = some c → s.get .customer j = some d →
      f i = f j → i = j) ∧
    ∀ (id : Id) (c : Customer), s'.get .customer id = some c →
      ∃ (i : Id) (d : Customer), s.get .customer i = some d ∧ f i = id

/-! ## The book of an import -/

section

variable {orgId : Id} {file : List FileRow} {home : ℕ → Home} {s₀ s s' : Db}
  {patrons patrons' : Patrons} {hist : Home → List CustomerImportRow} {i n : ℕ} {ok : Bool}
  {data : CustomerImportRow} {result : Option RowResult} {course : Course} {id : Id} {c : Customer}
  {j : ℕ} {r : RowResult}

/-- What is in the store after the rows `hist` of every home. -/
structure Book (orgId : Id) (file : List FileRow) (home : ℕ → Home) (s₀ : Db) (patrons : Patrons)
    (hist : Home → List CustomerImportRow) (s : Db) : Prop where
  sound : Sound s
  existing {id : Id} {c : Customer} : s₀.get .customer id = some c →
    s.get .customer id = some (applied c (hist (.existing id)))
  fresh {j : ℕ} {id : Id} : patrons j = some id → s₀.get .customer id = none ∧
    s.get .customer id = some (applied (unknown orgId) (hist (.fresh j)))
  only {id : Id} {c : Customer} : s.get .customer id = some c →
    (∃ c₀ : Customer, s₀.get .customer id = some c₀) ∨ ∃ j, patrons j = some id
  injective {j k : ℕ} {id : Id} : patrons j = some id → patrons k = some id → j = k
  own {h : Home} {d : CustomerImportRow} : d ∈ hist h →
    ∃ i n, file[i]? = some (n, .ok d) ∧ home i = h
  points {id : Id} {c : Customer} : s₀.get .customer id = some c → pointsOf s id = pointsOf s₀ id
  opening {j : ℕ} {id : Id} : patrons j = some id → home j = .fresh j ∧
    ∃ n d, file[j]? = some (n, .ok d) ∧ pointsOf s id = d.opening
  empty {j : ℕ} : patrons j = none → hist (.fresh j) = []

def histAfter (hist : Home → List CustomerImportRow) (h : Home) (data : CustomerImportRow) :
    Course → Home → List CustomerImportRow
  | .stopped => hist
  | _ => Function.update hist h (hist h ++ [data])

theorem Book.start (hs : Sound s₀) :
    Book orgId file home s₀ (fun _ => none) (fun _ => []) s₀ where
  sound := hs
  existing h := h
  fresh h := by cases h
  only h := Or.inl ⟨_, h⟩
  injective h := by cases h
  own h := by cases h
  points _ := rfl
  opening h := by cases h
  empty _ := rfl

theorem own_snoc (h : Book orgId file home s₀ patrons hist s) (hrow : file[i]? = some (n, .ok data))
    {h' : Home} {d : CustomerImportRow}
    (hd : d ∈ Function.update hist (home i) (hist (home i) ++ [data]) h') :
    ∃ i n, file[i]? = some (n, .ok d) ∧ home i = h' := by
  by_cases he : h' = home i
  · subst he
    rw [Function.update_self, List.mem_append] at hd
    rcases hd with hd | hd
    · exact h.own hd
    · cases List.mem_singleton.mp hd
      exact ⟨i, n, hrow, rfl⟩
  · rw [Function.update_of_ne he] at hd
    exact h.own hd

theorem Book.found (h : Book orgId file home s₀ patrons hist s)
    (hrow : file[i]? = some (n, .ok data)) (hm : Meets home i patrons (some id))
    (hc : s.get .customer id = some c)
    (ht : Touches id (CustomerImportRow.onto c data) (pointsOf s id) s s') :
    Book orgId file home s₀ patrons (Function.update hist (home i) (hist (home i) ++ [data])) s' := by
  have hpoints : ∀ k, pointsOf s' k = pointsOf s k := by
    intro k
    by_cases hk : k = id
    · rw [hk, ht.points]
    · exact ht.others hk
  exact {
    sound := ht.sound
    existing := fun {k c0} hk => by
      have hold := h.existing hk
      rcases hm with ⟨hhome, -⟩ | ⟨j, hhome, hj⟩
      · by_cases hkid : k = id
        · subst hkid
          rw [hhome, Function.update_self, applied_snoc, ht.customer]
          rw [hold] at hc
          rw [Option.some.inj hc]
        · rw [hhome, Function.update_of_ne (by simpa using hkid), ht.customers hkid]
          exact hold
      · have hkid : k ≠ id := by
          rintro rfl
          rw [(h.fresh hj).1] at hk
          cases hk
        rw [hhome, Function.update_of_ne (by simp), ht.customers hkid]
        exact hold
    fresh := fun {k kid} hk => by
      obtain ⟨hnone, hold⟩ := h.fresh hk
      refine ⟨hnone, ?_⟩
      rcases hm with ⟨hhome, hno⟩ | ⟨j, hhome, hj⟩
      · have hkid : kid ≠ id := by
          rintro rfl
          exact hno k hk
        rw [hhome, Function.update_of_ne (by simp), ht.customers hkid]
        exact hold
      · by_cases hkid : kid = id
        · subst hkid
          obtain rfl := h.injective hk hj
          rw [hhome, Function.update_self, applied_snoc, ht.customer]
          rw [hold] at hc
          rw [Option.some.inj hc]
        · have hkj : k ≠ j := by
            rintro rfl
            exact hkid (Option.some.inj (hk.symm.trans hj))
          rw [hhome, Function.update_of_ne (by simpa using hkj), ht.customers hkid]
          exact hold
    only := fun {k d} hk => by
      by_cases hkid : k = id
      · subst hkid
        exact h.only hc
      · rw [ht.customers hkid] at hk
        exact h.only hk
    injective := h.injective
    own := own_snoc h hrow
    points := fun hk => (hpoints _).trans (h.points hk)
    opening := fun hk => by
      obtain ⟨hhome, n', d, hd, hp⟩ := h.opening hk
      exact ⟨hhome, n', d, hd, (hpoints _).trans hp⟩
    empty := fun {k} hk => by
      rcases hm with ⟨hhome, -⟩ | ⟨j, hhome, hj⟩
      · rw [hhome, Function.update_of_ne (by simp)]
        exact h.empty hk
      · have hkj : k ≠ j := by
          rintro rfl
          rw [hk] at hj
          cases hj
        rw [hhome, Function.update_of_ne (by simpa using hkj)]
        exact h.empty hk }

theorem Book.created (h : Book orgId file home s₀ patrons hist s)
    (hrow : file[i]? = some (n, .ok data)) (hm : Meets home i patrons none)
    (hnone : s.get .customer id = none)
    (ht : Touches id (CustomerImportRow.onto (unknown orgId) data) data.opening s s') :
    Book orgId file home s₀ (Function.update patrons i (some id))
      (Function.update hist (home i) (hist (home i) ++ [data])) s' := by
  obtain ⟨hhome, hi⟩ := hm
  have hold : ∀ {k : Id} {c0 : Customer}, s₀.get .customer k = some c0 → k ≠ id := by
    rintro k c0 hk rfl
    rw [h.existing hk] at hnone
    cases hnone
  have hmade : ∀ {j : ℕ} {k : Id}, patrons j = some k → k ≠ id ∧ j ≠ i := by
    intro j k hk
    constructor
    · rintro rfl
      rw [(h.fresh hk).2] at hnone
      cases hnone
    · rintro rfl
      rw [hi] at hk
      cases hk
  have hpatron : ∀ {j : ℕ} {k : Id}, Function.update patrons i (some id) j = some k →
      j = i ∧ k = id ∨ j ≠ i ∧ patrons j = some k := by
    intro j k hk
    by_cases hj : j = i
    · subst hj
      rw [Function.update_self] at hk
      exact Or.inl ⟨rfl, (Option.some.inj hk).symm⟩
    · rw [Function.update_of_ne hj] at hk
      exact Or.inr ⟨hj, hk⟩
  exact {
    sound := ht.sound
    existing := fun hk => by
      rw [hhome, Function.update_of_ne (by simp), ht.customers (hold hk)]
      exact h.existing hk
    fresh := fun {j k} hk => by
      rcases hpatron hk with ⟨rfl, rfl⟩ | ⟨hj, hk⟩
      · refine ⟨?_, ?_⟩
        · cases hs0 : s₀.get .customer k with
          | none => rfl
          | some c0 => exact absurd rfl (hold hs0)
        · rw [hhome, Function.update_self, h.empty hi]
          exact ht.customer
      · refine ⟨(h.fresh hk).1, ?_⟩
        rw [hhome, Function.update_of_ne (by simpa using hj), ht.customers (hmade hk).1]
        exact (h.fresh hk).2
    only := fun {k d} hk => by
      by_cases hkid : k = id
      · exact Or.inr ⟨i, by rw [hkid, Function.update_self]⟩
      · rw [ht.customers hkid] at hk
        rcases h.only hk with hk | ⟨j, hj⟩
        · exact Or.inl hk
        · exact Or.inr ⟨j, by rw [Function.update_of_ne (hmade hj).2, hj]⟩
    injective := fun {j k kid} hj hk => by
      rcases hpatron hj with ⟨hji, hjid⟩ | ⟨-, hjold⟩
      · rcases hpatron hk with ⟨hki, -⟩ | ⟨-, hkold⟩
        · exact hji.trans hki.symm
        · exact absurd hjid (hmade hkold).1
      · rcases hpatron hk with ⟨-, hkid⟩ | ⟨-, hkold⟩
        · exact absurd hkid (hmade hjold).1
        · exact h.injective hjold hkold
    own := own_snoc h hrow
    points := fun hk => (ht.others (hold hk)).trans (h.points hk)
    opening := fun {j k} hk => by
      rcases hpatron hk with ⟨rfl, rfl⟩ | ⟨hj, hk⟩
      · exact ⟨hhome, n, data, hrow, ht.points⟩
      · obtain ⟨hh, n', d, hd, hp⟩ := h.opening hk
        exact ⟨hh, n', d, hd, (ht.others (hmade hk).1).trans hp⟩
    empty := fun {j} hj => by
      have hji : j ≠ i := by
        rintro rfl
        rw [Function.update_self] at hj
        cases hj
      rw [Function.update_of_ne hji] at hj
      rw [hhome, Function.update_of_ne (by simpa using hji)]
      exact h.empty hj }

/-- **One more row.** -/
theorem Book.row (h : Book orgId file home s₀ patrons hist s)
    (hrow : file[i]? = some (n, .ok data)) (hrun : RowRun orgId data s course result s')
    (hc : Careful home i patrons data result course) :
    Book orgId file home s₀ (patrons.after i course) (histAfter hist (home i) data course) s' := by
  cases course with
  | stopped =>
    rw [hrun.unchanged]
    exact h
  | updating id =>
    obtain ⟨c, hget, ht⟩ := hrun.touches_found h.sound (Or.inl rfl)
    exact h.found hrow hc.2 hget ht
  | updated id =>
    obtain ⟨c, hget, ht⟩ := hrun.touches_found h.sound (Or.inr rfl)
    exact h.found hrow hc hget ht
  | creating id =>
    obtain ⟨hnone, ht⟩ := hrun.touches_new h.sound (Or.inr ⟨rfl, hc.2.1⟩)
    exact h.created hrow hc.2.2 hnone ht
  | created id =>
    obtain ⟨hnone, ht⟩ := hrun.touches_new h.sound (Or.inl rfl)
    exact h.created hrow hc hnone ht

/-! ## Accepted rows -/

/-- The rows before row `i` that are about one customer. -/
def rowsFor (file : List FileRow) (home : ℕ → Home) (h : Home) : ℕ → List CustomerImportRow
  | 0 => []
  | i + 1 => rowsFor file home h i ++
    match file[i]? with
    | some (_, .ok data) => if home i = h then [data] else []
    | _ => []

theorem rowsFor_succ (hrow : file[i]? = some (n, .ok data)) (h : Home) :
    rowsFor file home h (i + 1) =
      rowsFor file home h i ++ if home i = h then [data] else [] := by
  rw [rowsFor, hrow]

theorem mem_rowsFor {h : Home} {m : ℕ} (hrow : file[i]? = some (n, .ok data)) (hh : home i = h)
    (hm : i < m) : data ∈ rowsFor file home h m := by
  induction m with
  | zero => omega
  | succ m ih =>
    rw [rowsFor, List.mem_append]
    by_cases hi : i = m
    · subst hi
      right
      simp [hrow, hh]
    · exact Or.inl (ih (by omega))

/-- **An upload that accepts all rows** so far: every home has the rows that are about it, once more, and
every customer the rows are about is there. -/
structure Pass (file : List FileRow) (home : ℕ → Home) (patrons : Patrons)
    (hist : Home → List CustomerImportRow) (i : ℕ) : Prop where
  rows (h : Home) : ∃ before, hist h = before ++ rowsFor file home h i
  patrons {k j : ℕ} : k < i → home k = .fresh j → ∃ id, patrons j = some id

theorem Pass.start : Pass file home patrons hist 0 where
  rows h := ⟨hist h, (List.append_nil _).symm⟩
  patrons hk := by omega

theorem Patrons.after_some (h : patrons j = some id)
    (hc : Careful home i patrons data result course) : patrons.after i course j = some id := by
  have hne : Meets home i patrons none → j ≠ i := by
    rintro ⟨-, hi⟩ rfl
    rw [h] at hi
    cases hi
  cases course with
  | stopped => exact h
  | updating _ => exact h
  | updated _ => exact h
  | creating _ => exact (Function.update_of_ne (hne hc.2.2) _ _).trans h
  | created _ => exact (Function.update_of_ne (hne hc) _ _).trans h

theorem RowRun.accepted (h : RowRun orgId data s course (some r) s') (hr : r.accepted = true) :
    (∃ id, course = .updated id ∧ r = .updated id) ∨ ∃ id, course = .created id ∧ r = .created id := by
  have hno : ¬ Unaccepted (some r) := by
    intro hu
    obtain ⟨m, rfl⟩ := hu r rfl
    cases hr
  cases h with
  | stopped hu => exact absurd hu hno
  | updating hu => exact absurd hu hno
  | updated => exact Or.inl ⟨_, rfl, rfl⟩
  | creating hu => exact absurd hu hno
  | created hr' =>
    rcases hr' with hr' | hr'
    · cases hr'
    · cases hr'
      exact Or.inr ⟨_, rfl, rfl⟩

/-- **One more row that is accepted.** -/
theorem Pass.row (h : Pass file home patrons hist i) (hrow : file[i]? = some (n, .ok data))
    (hrun : RowRun orgId data s course (some r) s') (hr : r.accepted = true)
    (hc : Careful home i patrons data (some r) course) :
    Pass file home (patrons.after i course) (histAfter hist (home i) data course) (i + 1) := by
  have hhist : histAfter hist (home i) data course =
      Function.update hist (home i) (hist (home i) ++ [data]) := by
    rcases hrun.accepted hr with ⟨id, rfl, -⟩ | ⟨id, rfl, -⟩ <;> rfl
  have hhere : ∀ j, home i = .fresh j → ∃ id, patrons.after i course j = some id := by
    intro j hj
    rcases hrun.accepted hr with ⟨id, rfl, -⟩ | ⟨id, rfl, -⟩
    · rcases hc with ⟨hhome, -⟩ | ⟨k, hhome, hk⟩
      · rw [hj] at hhome
        cases hhome
      · rw [hj] at hhome
        cases hhome
        exact ⟨id, hk⟩
    · obtain ⟨hhome, -⟩ := hc
      rw [hj] at hhome
      cases hhome
      exact ⟨id, Function.update_self _ _ _⟩
  refine ⟨fun h' => ?_, fun {k j} hk hj => ?_⟩
  · obtain ⟨before, hb⟩ := h.rows h'
    refine ⟨before, ?_⟩
    rw [rowsFor_succ hrow, hhist]
    by_cases he : home i = h'
    · subst he
      rw [Function.update_self, if_pos rfl, hb, List.append_assoc]
    · rw [Function.update_of_ne (Ne.symm he), if_neg he, hb, List.append_nil]
  · by_cases hki : k = i
    · subst hki
      exact hhere j hj
    · obtain ⟨id, hid⟩ := h.patrons (by omega) hj
      exact ⟨id, Patrons.after_some hid hc⟩

/-- **The book of every careful run.** -/
theorem Uploads.book (hs : Sound s₀) (h : Uploads orgId file (Careful home) s₀ i ok patrons s) :
    ∃ hist, Book orgId file home s₀ patrons hist s ∧
      (ok = true → Pass file home patrons hist i) := by
  induction h with
  | start => exact ⟨_, .start hs, fun _ => .start⟩
  | again _ ih =>
    obtain ⟨hist, hb, -⟩ := ih
    exact ⟨hist, hb, fun _ => .start⟩
  | refused _ _ _ ih =>
    obtain ⟨hist, hb, -⟩ := ih
    exact ⟨hist, hb, nofun⟩
  | row _ hrow _ hrun hP ih =>
    obtain ⟨hist, hb, hpass⟩ := ih
    refine ⟨_, hb.row hrow hrun hP, fun hok => ?_⟩
    obtain ⟨hok, hr⟩ := Bool.and_eq_true_iff.mp hok
    exact (hpass hok).row hrow hrun hr hP
  | died _ hrow _ hrun hP ih =>
    obtain ⟨hist, hb, -⟩ := ih
    exact ⟨_, hb.row hrow hrun hP, fun _ => .start⟩

/-! ## The same import -/

/-- **What an upload that accepts every row comes to**, whatever was uploaded before. -/
structure Imported (orgId : Id) (file : List FileRow) (home : ℕ → Home) (s₀ : Db)
    (patrons : Patrons) (s : Db) : Prop where
  existing {id : Id} {c : Customer} : s₀.get .customer id = some c →
    s.get .customer id = some (applied c (rowsFor file home (.existing id) file.length)) ∧
      pointsOf s id = pointsOf s₀ id
  fresh {j : ℕ} {id : Id} : patrons j = some id → s₀.get .customer id = none ∧
    s.get .customer id = some
      (applied (unknown orgId) (rowsFor file home (.fresh j) file.length)) ∧
        ∃ n d, file[j]? = some (n, .ok d) ∧ pointsOf s id = d.opening
  only {id : Id} {c : Customer} : s.get .customer id = some c →
    (∃ c₀ : Customer, s₀.get .customer id = some c₀) ∨ ∃ j, patrons j = some id
  injective {j k : ℕ} {id : Id} : patrons j = some id → patrons k = some id → j = k
  created {j : ℕ} : (∃ id, patrons j = some id) ↔ j < file.length ∧ home j = .fresh j

theorem Uploads.imported (hs : Sound s₀)
    (h : Uploads orgId file (Careful home) s₀ file.length true patrons s) :
    Imported orgId file home s₀ patrons s := by
  obtain ⟨hist, hb, hpass⟩ := h.book hs
  have hpass := hpass rfl
  have hall : ∀ (c : Customer) (h : Home),
      applied c (hist h) = applied c (rowsFor file home h file.length) := by
    intro c h
    obtain ⟨before, hbefore⟩ := hpass.rows h
    have hsub : before ⊆ rowsFor file home h file.length := by
      intro d hd
      obtain ⟨i, n, hrow, hh⟩ := hb.own (hbefore ▸ List.mem_append_left _ hd)
      exact mem_rowsFor hrow hh (List.getElem?_eq_some_iff.mp hrow).1
    rw [hbefore, applied_absorb hsub]
  exact {
    existing := fun hc => ⟨hall _ _ ▸ hb.existing hc, hb.points hc⟩
    fresh := fun hj => by
      obtain ⟨hnone, hrow⟩ := hb.fresh hj
      exact ⟨hnone, hall _ _ ▸ hrow, (hb.opening hj).2⟩
    only := hb.only
    injective := hb.injective
    created := fun {j} => by
      constructor
      · rintro ⟨id, hid⟩
        obtain ⟨hhome, n, d, hrow, -⟩ := hb.opening hid
        exact ⟨(List.getElem?_eq_some_iff.mp hrow).1, hhome⟩
      · rintro ⟨hj, hhome⟩
        exact hpass.patrons hj hhome }

/-- The customer of the one import that is a customer of the other. -/
noncomputable def twin (patrons patrons' : Patrons) (id : Id) : Id :=
  open Classical in
  if h : ∃ j, patrons j = some id then (patrons' h.choose).getD id else id

theorem twin_fresh (h : Imported orgId file home s₀ patrons s) {id' : Id} (hj : patrons j = some id)
    (hj' : patrons' j = some id') : twin patrons patrons' id = id' := by
  have hex : ∃ j, patrons j = some id := ⟨j, hj⟩
  have hchoose : hex.choose = j := h.injective hex.choose_spec hj
  rw [twin, dif_pos hex, hchoose, hj', Option.getD_some]

theorem twin_existing (h : Imported orgId file home s₀ patrons s)
    (hc : s₀.get .customer id = some c) : twin patrons patrons' id = id := by
  rw [twin, dif_neg]
  rintro ⟨j, hj⟩
  rw [(h.fresh hj).1] at hc
  cases hc

theorem Imported.twins (h : Imported orgId file home s₀ patrons s)
    (h' : Imported orgId file home s₀ patrons' s') (hc : s.get .customer id = some c) :
    (∃ c0 : Customer, s₀.get .customer id = some c0 ∧ twin patrons patrons' id = id) ∨
      ∃ j, patrons j = some id ∧ patrons' j = some (twin patrons patrons' id) := by
  rcases h.only hc with ⟨c0, hc0⟩ | ⟨j, hj⟩
  · exact Or.inl ⟨c0, hc0, twin_existing h hc0⟩
  · obtain ⟨id', hj'⟩ := h'.created.mpr (h.created.mp ⟨id, hj⟩)
    exact Or.inr ⟨j, hj, by rw [twin_fresh h hj hj', hj']⟩

/-- **Two uploads of a file that accept every row** come to the same. -/
theorem Imported.same (h : Imported orgId file home s₀ patrons s)
    (h' : Imported orgId file home s₀ patrons' s') : SameImport s s' := by
  refine ⟨twin patrons patrons', fun id c hc => ?_, fun i j c d hc hd he => ?_, fun id c hc => ?_⟩
  · rcases h.twins h' hc with ⟨c0, hc0, he⟩ | ⟨j, hj, hj'⟩
    · obtain ⟨hrow, hp⟩ := h.existing hc0
      obtain ⟨hrow', hp'⟩ := h'.existing hc0
      rw [he, hrow', hp', hp]
      exact ⟨hrow.symm.trans hc, rfl⟩
    · obtain ⟨-, hrow, n, d, hd, hp⟩ := h.fresh hj
      obtain ⟨-, hrow', n', d', hd', hp'⟩ := h'.fresh hj'
      rw [hd] at hd'
      cases hd'
      rw [hrow', hp', hp]
      exact ⟨hrow.symm.trans hc, rfl⟩
  · rcases h.twins h' hc with ⟨c0, hc0, hi⟩ | ⟨k, hk, hk'⟩
    · rcases h.twins h' hd with ⟨d0, hd0, hj⟩ | ⟨l, hl, hl'⟩
      · rw [hi, hj] at he
        exact he
      · rw [← he, hi] at hl'
        rw [(h'.fresh hl').1] at hc0
        cases hc0
    · rcases h.twins h' hd with ⟨d0, hd0, hj⟩ | ⟨l, hl, hl'⟩
      · rw [he, hj] at hk'
        rw [(h'.fresh hk').1] at hd0
        cases hd0
      · rw [← he] at hl'
        obtain rfl := h'.injective hk' hl'
        exact Option.some.inj (hk.symm.trans hl)
  · rcases h'.only hc with ⟨c0, hc0⟩ | ⟨j, hj'⟩
    · exact ⟨id, _, (h.existing hc0).1, twin_existing h hc0⟩
    · obtain ⟨i, hj⟩ := h.created.mpr (h'.created.mp ⟨id, hj'⟩)
      exact ⟨i, _, (h.fresh hj).2.1, twin_fresh h hj hj'⟩

/-! ## Rows as they are processed -/

theorem seenBefore_succ {row : FileRow} (hrow : file[i]? = some row) :
    seenBefore file (i + 1) = seenAfter (seenBefore file i) row.2 := by
  rw [seenBefore, seenBefore, List.take_add_one, hrow, List.foldl_append]
  rfl

variable {P : ℕ → Patrons → CustomerImportRow → Option RowResult → Course → Prop}
  {pre rows : List FileRow} {out : List (ℕ × RowResult)} {done results : List RowResult}
  {Q : List RowResult → Patrons → Prop}

theorem getElem?_next {row : FileRow} (hfile : file = pre ++ row :: rows) :
    file[pre.length]? = some row := by
  rw [hfile, List.getElem?_append_right (Nat.le_refl _), Nat.sub_self, List.getElem?_cons_zero]

theorem importRows_cons {row : FileRow} {seenKeys : List String} :
    importRows orgId (row :: rows) seenKeys = (importOneRow orgId seenKeys row.2).bind fun result =>
      (importRows orgId rows (seenAfter seenKeys row.2)).bind fun rest =>
        .pure ((row.1, result) :: rest) := rfl

/-- **An upload that comes to its end** is a run, if every row meets `P`; `Q` is what the rows so far have
come to. -/
theorem importRows_uploads
    (hstep : ∀ done patrons data result course s s', done ++ [result] <+: results →
      Q done patrons → RowRun orgId data s course (some result) s' →
        P done.length patrons data (some result) course ∧
          Q (done ++ [result]) (patrons.after done.length course))
    (hrefused : ∀ done patrons m, Q done patrons → Q (done ++ [.error m]) patrons)
    (h : Uploads orgId file P s₀ done.length ok patrons s) (hQ : Q done patrons)
    (hfile : file = pre ++ rows) (hlen : pre.length = done.length)
    (hresults : results = done ++ out.map Prod.snd)
    (hg : (importRows orgId rows (seenBefore file done.length)).gives s (.ok out) s') :
    ∃ patrons', Uploads orgId file P s₀ file.length (ok && out.all (·.2.accepted)) patrons' s' ∧
      Q results patrons' := by
  induction rows generalizing pre done ok patrons s out with
  | nil =>
    obtain ⟨hout, rfl⟩ := hg
    cases hout
    rw [List.append_nil] at hfile
    subst hfile
    rw [hlen, List.all_nil, Bool.and_true]
    rw [List.map_nil, List.append_nil] at hresults
    exact ⟨patrons, h, hresults ▸ hQ⟩
  | cons row rows ih =>
    rw [importRows_cons] at hg
    obtain ⟨result, m, hone, hg⟩ := hg.seq
    obtain ⟨rest, m', hrest, hp⟩ := hg.seq
    obtain ⟨hout, rfl⟩ := hp
    cases hout
    have hrow : file[done.length]? = some row := hlen ▸ getElem?_next hfile
    have hfile' : file = (pre ++ [row]) ++ rows := by
      rw [hfile, List.append_assoc, List.singleton_append]
    have hlen' : (pre ++ [row]).length = (done ++ [result]).length := by
      rw [List.length_append, List.length_append, hlen, List.length_singleton,
        List.length_singleton]
    have hresults' : results = (done ++ [result]) ++ rest.map Prod.snd := by
      rw [hresults, List.append_assoc]
      rfl
    have hnext : (done ++ [result]).length = done.length + 1 := by
      rw [List.length_append, List.length_singleton]
    rw [← seenBefore_succ hrow, ← hnext] at hrest
    rw [List.all_cons, ← Bool.and_assoc]
    obtain ⟨result', hr, ⟨hno, rfl, m, rfl⟩ | ⟨data, course, hdata, hno, hrun⟩⟩ :=
      importOneRow_gives hone
    · cases hr
      have hu := h.refused hrow hno
      rw [← hnext] at hu
      have hall : (ok && RowResult.accepted (.error m)) = false := Bool.and_false ok
      dsimp only
      rw [hall]
      exact ih hu (hrefused _ _ _ hQ) hfile' hlen' hresults' hrest
    · cases hr
      obtain ⟨n, row⟩ := row
      obtain rfl : row = .ok data := hdata
      obtain ⟨hP, hQ'⟩ := hstep done patrons data result course s m
        (hresults' ▸ List.prefix_append _ _) hQ hrun
      have hu := h.row hrow hno hrun hP
      rw [← hnext] at hu
      exact ih hu hQ' hfile' hlen' hresults' hrest

/-- **An upload that dies** is a run. -/
theorem importRows_died (h : Uploads orgId file (fun _ _ _ _ _ => True) s₀ i ok patrons s)
    (hfile : file = pre ++ rows) (hlen : pre.length = i)
    (hg : (importRows orgId rows (seenBefore file i)).passes s s') :
    ∃ i ok patrons', Uploads orgId file (fun _ _ _ _ _ => True) s₀ i ok patrons' s' := by
  induction rows generalizing pre i ok patrons s with
  | nil =>
    cases hg
    exact ⟨_, _, _, h⟩
  | cons row rows ih =>
    have hrow : file[i]? = some row := hlen ▸ getElem?_next hfile
    have hfile' : file = (pre ++ [row]) ++ rows := by
      rw [hfile, List.append_assoc, List.singleton_append]
    have hlen' : (pre ++ [row]).length = i + 1 := by
      rw [List.length_append, hlen, List.length_singleton]
    rw [importRows_cons] at hg
    rcases Call.passes_bind hg with hone | ⟨result, m, hone, hg⟩
    · rcases importOneRow_passes hone with rfl | ⟨data, course, hdata, hno, hrun⟩
      · exact ⟨_, _, _, h⟩
      · obtain ⟨n, row⟩ := row
        obtain rfl : row = .ok data := hdata
        exact ⟨_, _, _, h.died hrow hno hrun trivial⟩
    · have hrest : (importRows orgId rows (seenBefore file (i + 1))).passes m s' := by
        rw [seenBefore_succ hrow]
        rcases Call.passes_bind hg with hrest | ⟨rest, m', hrest, hp⟩
        · exact hrest
        · cases hp
          exact Call.gives_passes hrest
      obtain ⟨result', hr, ⟨hno, rfl, m, rfl⟩ | ⟨data, course, hdata, hno, hrun⟩⟩ :=
        importOneRow_gives hone
      · exact ih (h.refused hrow hno) hfile' hlen' hrest
      · obtain ⟨n, row⟩ := row
        obtain rfl : row = .ok data := hdata
        exact ih (h.row hrow hno hrun trivial) hfile' hlen' hrest


/-! ## The report -/

theorem foldl_add (summary : CustomerImportResult) (out : List (ℕ × RowResult)) :
    (out.foldl CustomerImportResult.add summary).rows = summary.rows ++ out ∧
      (out.foldl CustomerImportResult.add summary).errors =
        summary.errors + out.countP (!·.2.accepted) := by
  induction out generalizing summary with
  | nil => simp
  | cons row out ih =>
    obtain ⟨n, result⟩ := row
    obtain ⟨hrows, herrors⟩ := ih (summary.add (n, result))
    rw [List.foldl_cons, hrows, herrors, List.countP_cons]
    cases result with
    | created id => simp [CustomerImportResult.add, RowResult.accepted]
    | updated id => simp [CustomerImportResult.add, RowResult.accepted]
    | error m =>
      simp [CustomerImportResult.add, RowResult.accepted]
      omega

theorem summaryOf_rows (out : List (ℕ × RowResult)) : (summaryOf out).rows = out :=
  (foldl_add {} out).1

theorem summaryOf_errors (out : List (ℕ × RowResult)) :
    (summaryOf out).errors = 0 ↔ out.all (·.2.accepted) = true := by
  rw [summaryOf, (foldl_add {} out).2, Nat.zero_add, List.countP_eq_zero, List.all_eq_true]
  simp

variable {parse : Csv.Record → Except String CustomerImportRow} {size : ℕ} {text : Formats.Text}
  {records : List Csv.ImportRecord} {ref : CustomerImportResult} {sref : Db}

theorem importCsv_eq : importCsv parse orgId size text =
    (requireEnabled orgId).bind fun _ =>
      (Call.ofExcept (importRecords size text)).bind fun records =>
        (importRows orgId (fileRows parse records) []).bind fun rows => .pure (summaryOf rows) := rfl

/-- What an upload reports. -/
theorem importCsv_gives (h : (importCsv parse orgId size text).gives s (.ok ref) s') :
    ∃ records, importRecords size text = .ok records ∧
      (importRows orgId (fileRows parse records) []).gives s (.ok ref.rows) s' ∧
        (ref.errors = 0 ↔ ref.rows.all (·.2.accepted) = true) := by
  rw [importCsv_eq] at h
  obtain ⟨u, m, hon, h1⟩ := h.seq
  have hm := requireEnabled_still.still hon
  subst hm
  obtain ⟨records, m, hrec, h2⟩ := h1.seq
  obtain ⟨hrecords, rfl⟩ := Call.gives_ofExcept.mp hrec
  obtain ⟨out, m, hout, hp⟩ := h2.seq
  obtain ⟨hr, rfl⟩ := hp
  cases hr
  rw [summaryOf_rows]
  exact ⟨records, hrecords, hout, summaryOf_errors out⟩

/-! ## The failure-free upload -/

theorem homesOf_created (h : results[i]? = some (.created id)) :
    homesOf results i = .fresh i := by
  rw [homesOf, h]

theorem homesOf_updated (h : results[i]? = some (.updated id)) :
    homesOf results i = .existing id ∧ (∀ j < i, results[j]? ≠ some (.created id)) ∨
      ∃ j < i, homesOf results i = .fresh j ∧ results[j]? = some (.created id) := by
  rw [homesOf, h]
  dsimp only
  cases hfind : (List.range i).find? fun j => results[j]? == some (.created id) with
  | none =>
    refine Or.inl ⟨rfl, fun j hj he => ?_⟩
    have hno := List.find?_eq_none.mp hfind j (List.mem_range.mpr hj)
    simp [he] at hno
  | some j =>
    have hj := List.mem_range.mp (List.mem_of_find?_eq_some hfind)
    have he := List.find?_some hfind
    exact Or.inr ⟨j, hj, rfl, by simpa using he⟩

def Reported (done : List RowResult) (patrons : Patrons) : Prop :=
  ∀ j id, patrons j = some id ↔ done[j]? = some (.created id)

theorem getElem?_start (h : done <+: results) (hj : j < done.length) :
    results[j]? = done[j]? := by
  obtain ⟨t, rfl⟩ := h
  exact List.getElem?_append_left hj

theorem Reported.lt (h : Reported done patrons) (hj : patrons j = some id) :
    j < done.length :=
  (List.getElem?_eq_some_iff.mp ((h j id).mp hj)).1

/-- **A row of a failure-free upload** is careful. -/
theorem Reported.row (h : Reported done patrons) (hpre : done ++ [r] <+: results)
    (hr : r.accepted = true) (hrun : RowRun orgId data s course (some r) s') :
    Careful (homesOf results) done.length patrons data (some r) course ∧
      Reported (done ++ [r]) (patrons.after done.length course) := by
  have hdone : done <+: results := (List.prefix_append _ _).trans hpre
  have hnext : results[done.length]? = some r := by
    rw [getElem?_start hpre (by simp), List.getElem?_append_right (Nat.le_refl _), Nat.sub_self,
      List.getElem?_cons_zero]
  have hlast : ∀ j, (done ++ [r])[j]? = if j = done.length then some r else done[j]? := by
    intro j
    by_cases hj : j = done.length
    · rw [if_pos hj, hj, List.getElem?_append_right (Nat.le_refl _), Nat.sub_self,
        List.getElem?_cons_zero]
    · rw [if_neg hj]
      by_cases hlt : j < done.length
      · exact List.getElem?_append_left hlt
      · rw [List.getElem?_eq_none (by simp; omega), List.getElem?_eq_none (by omega)]
  rcases hrun.accepted hr with ⟨id, rfl, rfl⟩ | ⟨id, rfl, rfl⟩
  · constructor
    · rcases homesOf_updated hnext with ⟨hhome, hno⟩ | ⟨j, hj, hhome, hcreated⟩
      · refine Or.inl ⟨hhome, fun j hj => hno j (h.lt hj) ?_⟩
        rw [getElem?_start hdone (h.lt hj)]
        exact (h j id).mp hj
      · refine Or.inr ⟨j, hhome, (h j id).mpr ?_⟩
        rw [← getElem?_start hdone hj]
        exact hcreated
    · intro j k
      rw [hlast, Patrons.after]
      by_cases hj : j = done.length
      · rw [if_pos hj, hj, h, List.getElem?_eq_none (Nat.le_refl _)]
        simp
      · rw [if_neg hj]
        exact h j k
  · constructor
    · refine ⟨homesOf_created hnext, ?_⟩
      cases hp : patrons done.length with
      | none => rfl
      | some k => exact absurd (h.lt hp) (Nat.lt_irrefl _)
    · intro j k
      rw [hlast, Patrons.after]
      by_cases hj : j = done.length
      · rw [if_pos hj, hj, Function.update_self]
        simp
      · rw [if_neg hj, Function.update_of_ne hj]
        exact h j k

/-- **A failure-free upload** is a careful run. -/
theorem uploads_of_reference (h : (importRows orgId file []).gives s₀ (.ok out) sref)
    (hall : out.all (·.2.accepted) = true) :
    ∃ patrons, Uploads orgId file (Careful (homesOf (out.map Prod.snd))) s₀ file.length true
      patrons sref ∧ Reported (out.map Prod.snd) patrons := by
  have hok : ∀ r ∈ out.map Prod.snd, r.accepted = true := by
    intro r hr
    obtain ⟨x, hx, rfl⟩ := List.mem_map.mp hr
    exact List.all_eq_true.mp hall x hx
  have hstart : Reported [] fun _ => none := by
    intro j id
    simp
  have hrow : ∀ done patrons data result course s s', done ++ [result] <+: out.map Prod.snd →
      Reported done patrons → RowRun orgId data s course (some result) s' →
        Careful (homesOf (out.map Prod.snd)) done.length patrons data (some result) course ∧
          Reported (done ++ [result]) (patrons.after done.length course) :=
    fun done patrons data result course s s' hpre hQ hrun =>
      hQ.row hpre (hok result (hpre.subset (by simp))) hrun
  have hrefused : ∀ done patrons m, Reported done patrons →
      Reported (done ++ [.error m]) patrons := by
    intro done patrons m hQ j id
    rw [hQ j id]
    by_cases hj : j < done.length
    · rw [List.getElem?_append_left hj]
    · rw [List.getElem?_eq_none (by omega), List.getElem?_append_right (by omega)]
      cases j - done.length <;> simp
  obtain ⟨patrons, hu, hq⟩ := importRows_uploads hrow hrefused .start hstart
    (List.nil_append file).symm rfl (List.nil_append _).symm h
  rw [Bool.true_and, hall] at hu
  exact ⟨patrons, hu, hq⟩


/-! ## Uploads of the code -/

/-- **A file uploaded in turn**: every upload comes to its end, or dies. -/
abbrev UploadHistory (parse : Csv.Record → Except String CustomerImportRow) (orgId : Id) (size : ℕ)
    (text : Formats.Text) :=
  InTurn (fun _ : Unit => importCsv parse orgId size text) fun _ _ _ _ => True

theorem importRows_ok {seenKeys : List String} {r : Except Err (List (ℕ × RowResult))}
    (h : (importRows orgId rows seenKeys).gives s r s') :
    ∃ out, r = .ok out := by
  induction rows generalizing seenKeys s r with
  | nil => exact ⟨_, h.1⟩
  | cons row rows ih =>
    rw [importRows_cons] at h
    rcases Call.gives_bind.mp h with ⟨result, m, -, h⟩ | ⟨e, h, -⟩
    · rcases Call.gives_bind.mp h with ⟨rest, m', -, h⟩ | ⟨e, h, -⟩
      · exact ⟨_, h.1⟩
      · obtain ⟨out, hout⟩ := ih h
        cases hout
    · obtain ⟨result, hr, -⟩ := importOneRow_gives h
      cases hr

theorem importCsv_rows (hrecords : importRecords size text = .ok records) :
    importCsv parse orgId size text = (requireEnabled orgId).bind fun _ =>
      (importRows orgId (fileRows parse records) []).bind fun rows => .pure (summaryOf rows) := by
  rw [importCsv_eq, hrecords]
  rfl

/-- An upload is refused as a whole, or goes through the rows. -/
theorem importCsv_answers (hrecords : importRecords size text = .ok records)
    {r : Except Err CustomerImportResult} (h : (importCsv parse orgId size text).gives s r s') :
    ((∃ e, r = .error e) ∧ s' = s) ∨
      ∃ out, r = .ok (summaryOf out) ∧
        (importRows orgId (fileRows parse records) []).gives s (.ok out) s' := by
  rw [importCsv_rows hrecords] at h
  rcases Call.gives_bind.mp h with ⟨u, m, hon, h1⟩ | ⟨e, hon, rfl⟩
  · have hm := requireEnabled_still.still hon
    subst hm
    rcases Call.gives_bind.mp h1 with ⟨out, m, hout, hp⟩ | ⟨e, he, -⟩
    · obtain ⟨hr, rfl⟩ := hp
      exact Or.inr ⟨out, hr, hout⟩
    · obtain ⟨out, hout⟩ := importRows_ok he
      cases hout
  · exact Or.inl ⟨⟨e, rfl⟩, requireEnabled_still.still hon⟩

theorem importCsv_passes (hrecords : importRecords size text = .ok records)
    (h : (importCsv parse orgId size text).passes s s') :
    (importRows orgId (fileRows parse records) []).passes s s' := by
  rw [importCsv_rows hrecords] at h
  rcases Call.passes_bind h with hon | ⟨u, m, hon, h1⟩
  · rw [eq_of_noSteps (requireEnabled_still _ _ hon)]
    exact Call.passes_here _
  · have hm := requireEnabled_still.still hon
    subst hm
    rcases Call.passes_bind h1 with hrows | ⟨out, m, hrows, hp⟩
    · exact hrows
    · cases hp
      exact Call.gives_passes hrows

/-- **What the code does with a file that is uploaded in turn** is a run of uploads; the last one has
accepted every row if it reports no error. -/
theorem uploads_of_history (hrecords : importRecords size text = .ok records)
    {l : List (Unit × Option (Except Err CustomerImportResult))}
    (h : UploadHistory parse orgId size text s₀ l s) :
    ∃ i ok patrons, Uploads orgId (fileRows parse records) (fun _ _ _ _ _ => True) s₀ i ok patrons s ∧
      ∀ report, l.getLast? = some ((), some (.ok report)) → report.errors = 0 →
        i = (fileRows parse records).length ∧ ok = true := by
  refine h.keeps (I := fun l s => ∃ i ok patrons,
    Uploads orgId (fileRows parse records) (fun _ _ _ _ _ => True) s₀ i ok patrons s ∧
      ∀ report, l.getLast? = some ((), some (.ok report)) → report.errors = 0 →
        i = (fileRows parse records).length ∧ ok = true)
    ⟨0, true, _, .start, nofun⟩ fun l m u o m' hI _ ht => ?_
  obtain ⟨i, ok, patrons, hu, -⟩ := hI
  have hstart := hu.again
  rw [List.getLast?_concat]
  cases o with
  | none =>
    obtain ⟨i, ok, patrons, hu⟩ := importRows_died hstart (List.nil_append _).symm rfl
      (importCsv_passes hrecords ht)
    exact ⟨i, ok, patrons, hu, nofun⟩
  | some r =>
    rcases importCsv_answers hrecords ht with ⟨⟨e, rfl⟩, rfl⟩ | ⟨out, rfl, hg⟩
    · exact ⟨0, true, patrons, hstart, nofun⟩
    · obtain ⟨patrons, hu, -⟩ := importRows_uploads (Q := fun _ _ => True)
        (fun _ _ _ _ _ _ _ _ _ _ => ⟨trivial, trivial⟩) (fun _ _ _ _ => trivial) hstart trivial
        (List.nil_append _).symm rfl (List.nil_append _).symm hg
      refine ⟨_, _, patrons, hu, fun report hlast herrors => ⟨rfl, ?_⟩⟩
      cases hlast
      rw [Bool.true_and]
      exact (summaryOf_errors out).mp herrors

/-- **A file that is uploaded again.** In careful uploads, a row that is reported as an error has changed
nothing; and once an upload has accepted every row, the customers and their points are those of a
failure-free upload, and every patron that was created has his opening balance. -/
theorem import_reuploadable (hs : Sound s₀)
    (href : (importCsv parse orgId size text).gives s₀ (.ok ref) sref) (herrors : ref.errors = 0)
    (hrecords : importRecords size text = .ok records)
    (h : Uploads orgId (fileRows parse records) (Careful (homesOf (ref.rows.map Prod.snd))) s₀ i ok
      patrons s) :
    (∀ n data course m s', (fileRows parse records)[i]? = some (n, .ok data) →
      RowRun orgId data s course (some (.error m)) s' →
        Careful (homesOf (ref.rows.map Prod.snd)) i patrons data (some (.error m)) course →
          s' = s) ∧
    (i = (fileRows parse records).length → ok = true → SameImport sref s ∧
      ∀ j id, patrons j = some id →
        ∃ n d, (fileRows parse records)[j]? = some (n, .ok d) ∧ pointsOf s id = d.opening) := by
  constructor
  · intro n data course m s' hrow hrun hc
    cases hrun with
    | stopped => rfl
    | updating => cases hc.1
    | creating => cases hc.1
    | created hr => rcases hr with hr | hr <;> cases hr
  · rintro rfl rfl
    obtain ⟨records', hrecords', hrows, hiff⟩ := importCsv_gives href
    rw [hrecords] at hrecords'
    cases hrecords'
    obtain ⟨patrons', href', -⟩ := uploads_of_reference hrows (hiff.mp herrors)
    have himported := h.imported hs
    exact ⟨(href'.imported hs).same himported, fun j id hj => (himported.fresh hj).2.2⟩

end

/-! ## A sheet -/

/-- A natural number. -/
def digits (t : Formats.Text) : ℤ := t.foldl (fun n c => 10 * n + (c.toNat - 48 : ℕ)) 0

def parseRow (r : Csv.Record) : Except String CustomerImportRow :=
  match r "name", r "email" with
  | some name, some email => .ok {
      name := String.ofList name
      email := some (String.ofList email)
      openingPoints := (r "openingPoints").map digits }
  | _, _ => .error "Required"

def sheet : Formats.Text := "name,email,points\nAda,ada@example.com,50".toList

/-- An organisation without customers. -/
def newShop : Db := Rel.empty.set .program 1 { orgId := 1 }

theorem newShop_sound : Sound newShop where
  kept := wellKept_empty.insert (by decide) (by decide +kernel) (by decide +kernel)
  linked h := by
    rw [newShop, Rel.get_set_ne (by simp)] at h
    cases h

def uploaded (s : Db) (env : Env) : Ran Db Err Ev CustomerImportResult :=
  (importCsv parseRow 1 41 sheet).eval env 0 s

def undisturbed : Env := ⟨fun _ => 1, 1000⟩

def switchedOff : Env := ⟨fun n => if n = 4 then 0 else 1, 1000⟩

theorem uploaded_gives {s : Db} {env : Env} {r : CustomerImportResult}
    (h : (uploaded s env).answer = .ok r) :
    (importCsv parseRow 1 41 sheet).gives s (.ok r) (uploaded s env).db := by
  have hg := Call.gives_eval env (importCsv parseRow 1 41 sheet) 0 s
  rwa [show ((importCsv parseRow 1 41 sheet).eval env 0 s).answer = .ok r from h] at hg

theorem newShop_uploaded : (importCsv parseRow 1 41 sheet).gives newShop
    (.ok ⟨1, 0, 0, [(2, .created 1)]⟩) (uploaded newShop undisturbed).db :=
  uploaded_gives (by decide +kernel)

/-- The sheet is uploaded a second time. -/
theorem import_reuploadable_twice :
    SameImport (uploaded newShop undisturbed).db
      (uploaded (uploaded newShop undisturbed).db undisturbed).db ∧
    pointsOf (uploaded (uploaded newShop undisturbed).db undisturbed).db 1 = 50 := by
  refine ⟨?_, by decide +kernel⟩
  have hagain : (importCsv parseRow 1 41 sheet).gives (uploaded newShop undisturbed).db
      (.ok ⟨0, 1, 0, [(2, .updated 1)]⟩)
      (uploaded (uploaded newShop undisturbed).db undisturbed).db :=
    uploaded_gives (by decide +kernel)
  obtain ⟨records, hrecords, hrows, -⟩ := importCsv_gives newShop_uploaded
  obtain ⟨records', hrecords', hrows', -⟩ := importCsv_gives hagain
  rw [hrecords] at hrecords'
  cases hrecords'
  obtain ⟨patrons, hfirst, hreported⟩ := uploads_of_reference hrows rfl
  have hada : patrons 0 = some 1 := (hreported 0 1).mpr rfl
  have hstep : ∀ (done : List RowResult) (patrons : Patrons) (data : CustomerImportRow)
      (result : RowResult) (course : Course) (s s' : Db), done ++ [result] <+: [.updated 1] →
      patrons 0 = some 1 → RowRun 1 data s course (some result) s' →
        Careful (homesOf [.created 1]) done.length patrons data (some result) course ∧
          (patrons.after done.length course) 0 = some 1 := by
    intro done patrons data result course s s' hpre hp hrun
    obtain ⟨rest, hrest⟩ := hpre
    cases done with
    | cons r done => simp at hrest
    | nil =>
      obtain rfl : result = .updated 1 := by simp_all
      rcases hrun.accepted rfl with ⟨id, rfl, hid⟩ | ⟨id, rfl, hid⟩
      · cases hid
        exact ⟨Or.inr ⟨0, rfl, hp⟩, hp⟩
      · cases hid
  have hrest : (importRows 1 (fileRows parseRow records) (seenBefore (fileRows parseRow records)
      ([] : List RowResult).length)).gives (uploaded newShop undisturbed).db
      (.ok [(2, .updated 1)]) (uploaded (uploaded newShop undisturbed).db undisturbed).db := hrows'
  obtain ⟨patrons', hsecond, -⟩ := importRows_uploads (Q := fun _ patrons => patrons 0 = some 1)
    hstep (fun _ _ _ h => h) hfirst.again hada (List.nil_append _).symm rfl
    (List.nil_append _).symm hrest
  exact ((import_reuploadable newShop_sound newShop_uploaded rfl hrecords hsecond).2 rfl rfl).1

/-- **An opening balance is lost.** -/
theorem exists_lost_opening : ¬ ∀ (parse : Csv.Record → Except String CustomerImportRow) (orgId : Id)
    (size : ℕ) (text : Formats.Text) (s₀ s₁ s₂ sref : Db) (ref first second : CustomerImportResult),
    Sound s₀ → (importCsv parse orgId size text).gives s₀ (.ok ref) sref → ref.errors = 0 →
      (importCsv parse orgId size text).gives s₀ (.ok first) s₁ →
        (importCsv parse orgId size text).gives s₁ (.ok second) s₂ → second.errors = 0 →
          SameImport sref s₂ := by
  intro h
  have hfirst : (uploaded newShop switchedOff).answer =
      .ok ⟨0, 0, 1, [(2, .error (importErrorMessage patronCrmDisabled))]⟩ := by decide +kernel
  have hsecond : (uploaded (uploaded newShop switchedOff).db undisturbed).answer =
      .ok ⟨0, 1, 0, [(2, .updated 1)]⟩ := by decide +kernel
  obtain ⟨f, hf, -, -⟩ := h _ _ _ _ _ _ _ _ _ _ _ newShop_sound newShop_uploaded rfl
    (uploaded_gives hfirst) (uploaded_gives hsecond) rfl
  have hsome : ((uploaded newShop undisturbed).db.get .customer 1).isSome = true := by
    decide +kernel
  obtain ⟨c, hc⟩ := Option.isSome_iff_exists.mp hsome
  obtain ⟨hget, hpoints⟩ := hf 1 c hc
  have honly : (((uploaded (uploaded newShop switchedOff).db undisturbed).db.rows .customer
      fun _ _ => true).map Prod.fst) = [1] := by
    decide +kernel
  have hf1 : f 1 = 1 := by
    have hrow : (f 1, c) ∈ (uploaded (uploaded newShop switchedOff).db undisturbed).db.rows
        .customer fun _ _ => true := Rel.mem_rows.mpr ⟨hget, rfl⟩
    have hmem := List.mem_map_of_mem (f := Prod.fst) hrow
    rw [honly] at hmem
    exact List.mem_singleton.mp hmem
  have hlost : pointsOf (uploaded (uploaded newShop switchedOff).db undisturbed).db 1 = 0 := by
    decide +kernel
  have hfifty : pointsOf (uploaded newShop undisturbed).db 1 = 50 := by decide +kernel
  rw [hf1, hlost, hfifty] at hpoints
  cases hpoints

end PatronLoyalty.Crm
