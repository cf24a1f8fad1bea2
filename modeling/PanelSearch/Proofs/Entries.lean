import PanelSearch.Entries

/-! What is under a key of a dictionary, and which keys it has: for texts one after the other, and
for entries written into a dictionary, of which the last one with a key counts. -/

namespace PanelSearch.Entries

variable {α : Type}

theorem get?_cons (k : String) (v : α) (rest : Entries α) (key : String) :
    get? ((k, v) :: rest) key = if k = key then some v else get? rest key := rfl

@[simp] theorem keys_nil : keys ([] : Entries α) = [] := rfl

@[simp] theorem keys_cons (e : String × α) (rest : Entries α) :
    keys (e :: rest) = e.1 :: keys rest := rfl

theorem get?_append (as bs : Entries α) (key : String) :
    get? (as ++ bs) key = (get? as key).or (get? bs key) := by
  induction as with
  | nil => rfl
  | cons e as ih =>
    obtain ⟨k, v⟩ := e
    by_cases hk : k = key
    · simp [get?_cons, hk]
    · simpa [get?_cons, hk] using ih

theorem mem_keys {es : Entries α} {key : String} : key ∈ keys es ↔ ∃ v, (key, v) ∈ es := by
  simp [keys]

theorem mem_of_get? {es : Entries α} {key : String} {v : α} (h : get? es key = some v) :
    (key, v) ∈ es := by
  induction es with
  | nil => cases h
  | cons e es ih =>
    obtain ⟨k, w⟩ := e
    rw [get?_cons] at h
    split at h
    · cases h
      simp [*]
    · exact List.mem_cons_of_mem _ (ih h)

theorem exists_get?_of_mem_keys {es : Entries α} {key : String} (h : key ∈ keys es) :
    ∃ v, get? es key = some v := by
  induction es with
  | nil => cases h
  | cons e es ih =>
    obtain ⟨k, v⟩ := e
    rw [get?_cons]
    by_cases hk : k = key
    · exact ⟨v, if_pos hk⟩
    · rw [if_neg hk]
      exact ih ((List.mem_cons.mp h).resolve_left (Ne.symm hk))

theorem get?_of_mem {es : Entries α} {key : String} {v : α} (hkeys : (keys es).Nodup)
    (h : (key, v) ∈ es) : get? es key = some v := by
  induction es with
  | nil => cases h
  | cons e es ih =>
    rw [keys_cons, List.nodup_cons] at hkeys
    rcases List.mem_cons.mp h with rfl | hmem
    · simp [get?_cons]
    · have hne : e.1 ≠ key := fun heq => hkeys.1 (mem_keys.mpr ⟨v, heq ▸ hmem⟩)
      obtain ⟨k, w⟩ := e
      rw [get?_cons, if_neg hne]
      exact ih hkeys.2 hmem

theorem get?_of_not_mem_keys {es : Entries α} {key : String} (h : key ∉ keys es) :
    get? es key = none := by
  cases hget : get? es key with
  | none => rfl
  | some v => exact absurd (mem_keys.mpr ⟨v, mem_of_get? hget⟩) h

theorem get?_eq_of_perm {as bs : Entries α} (h : as.Perm bs) (hkeys : (keys as).Nodup)
    (key : String) : get? as key = get? bs key := by
  cases hget : get? as key with
  | some v =>
    have hkeys' : (keys bs).Nodup := (h.map _).nodup_iff.mp hkeys
    rw [get?_of_mem hkeys' (h.mem_iff.mp (mem_of_get? hget))]
  | none =>
    refine (get?_of_not_mem_keys fun hmem => ?_).symm
    obtain ⟨v, hv⟩ := exists_get?_of_mem_keys ((h.map _).mem_iff.mpr hmem)
    rw [hget] at hv
    cases hv

theorem get?_eq_some_iff {es : Entries α} {key : String} {v : α} : get? es key = some v ↔
    ∃ before after, es = before ++ (key, v) :: after ∧ key ∉ keys before := by
  constructor
  · intro h
    induction es with
    | nil => cases h
    | cons e es ih =>
      obtain ⟨k, w⟩ := e
      by_cases hk : k = key
      · rw [get?_cons, if_pos hk] at h
        cases h
        exact ⟨[], es, by rw [hk, List.nil_append], by simp⟩
      · rw [get?_cons, if_neg hk] at h
        obtain ⟨before, after, rfl, hbefore⟩ := ih h
        exact ⟨(k, w) :: before, after, rfl, by simp [Ne.symm hk, hbefore]⟩
  · rintro ⟨before, after, rfl, hbefore⟩
    rw [get?_append, get?_of_not_mem_keys hbefore, get?_cons, if_pos rfl]
    rfl

theorem put_append {as : Entries α} {key : String} (h : key ∉ keys as) (bs : Entries α) (v : α) :
    put (as ++ bs) key v = as ++ put bs key v := by
  induction as with
  | nil => rfl
  | cons e as ih =>
    obtain ⟨k, w⟩ := e
    rw [keys_cons, List.mem_cons, not_or] at h
    rw [List.cons_append, put, if_neg (Ne.symm h.1), ih h.2]
    rfl

theorem keys_put_of_get? {es : Entries α} {key : String} {v : α} (h : get? es key = some v)
    (w : α) : keys (put es key w) = keys es := by
  rw [keys_put, if_pos (mem_keys.mpr ⟨v, mem_of_get? h⟩)]

theorem nodup_keys_put {es : Entries α} (h : (keys es).Nodup) (key : String) (v : α) :
    (keys (put es key v)).Nodup := by
  rw [keys_put]
  split
  · exact h
  · rename_i hk
    rw [List.nodup_append]
    refine ⟨h, by simp, ?_⟩
    intro a ha b hb
    rw [List.mem_singleton.mp hb]
    rintro rfl
    exact hk ha

theorem mem_keys_put {es : Entries α} {key other : String} {v : α} :
    other ∈ keys (put es key v) ↔ other = key ∨ other ∈ keys es := by
  rw [keys_put]
  split
  · constructor
    · exact .inr
    · rintro (rfl | h)
      · assumption
      · exact h
  · simp [or_comm]

theorem nodup_keys_putAll {es : Entries α} (h : (keys es).Nodup) (new : Entries α) :
    (keys (putAll es new)).Nodup := by
  induction new generalizing es with
  | nil => exact h
  | cons e new ih => exact ih (nodup_keys_put h _ _)

theorem mem_keys_putAll {es new : Entries α} {key : String} :
    key ∈ keys (putAll es new) ↔ key ∈ keys es ∨ key ∈ keys new := by
  induction new generalizing es with
  | nil => simp [putAll]
  | cons e new ih =>
    have hstep : putAll es (e :: new) = putAll (put es e.1 e.2) new := rfl
    rw [hstep, ih, mem_keys_put, keys_cons, List.mem_cons, or_assoc, or_left_comm]

/-- Of the entries that are written into a dictionary the last one with a key counts. -/
theorem get?_putAll (es new : Entries α) (key : String) :
    get? (putAll es new) key = (get? new.reverse key).or (get? es key) := by
  induction new generalizing es with
  | nil => rfl
  | cons e new ih =>
    obtain ⟨k, v⟩ := e
    have hstep : putAll es ((k, v) :: new) = putAll (put es k v) new := rfl
    rw [hstep, ih, get?_put, List.reverse_cons, get?_append, Option.or_assoc, get?_cons]
    by_cases hk : k = key
    · simp [hk]
    · simp [hk, Ne.symm hk]

theorem nodup_keys_ofList (pairs : List (String × α)) : (keys (ofList pairs)).Nodup :=
  nodup_keys_putAll (by simp) pairs

theorem mem_keys_ofList {pairs : List (String × α)} {key : String} :
    key ∈ keys (ofList pairs) ↔ key ∈ keys pairs := by
  rw [ofList, mem_keys_putAll]
  simp

theorem eraseDups_of_nodup {as : List String} (h : as.Nodup) : as.eraseDups = as := by
  induction as with
  | nil => rfl
  | cons a as ih =>
    rw [List.nodup_cons] at h
    rw [List.eraseDups_cons, List.filter_eq_self.mpr, ih h.2]
    intro b hb
    simpa using fun heq : b = a => h.1 (heq ▸ hb)

theorem eraseDups_append_cons {as : List String} {key : String} (h : key ∈ as)
    (bs : List String) : (as ++ key :: bs).eraseDups = (as ++ bs).eraseDups := by
  rw [List.eraseDups_append, List.eraseDups_append]
  simp [List.removeAll, h]

theorem keys_putAll {es : Entries α} (h : (keys es).Nodup) (new : Entries α) :
    keys (putAll es new) = (keys es ++ keys new).eraseDups := by
  induction new generalizing es with
  | nil =>
    rw [keys_nil, List.append_nil, eraseDups_of_nodup h]
    rfl
  | cons e new ih =>
    have hstep : putAll es (e :: new) = putAll (put es e.1 e.2) new := rfl
    rw [hstep, ih (nodup_keys_put h e.1 e.2), keys_put, keys_cons]
    split
    · rw [eraseDups_append_cons ‹_›]
    · rw [List.append_assoc, List.singleton_append]

/-- A key stands where it came first. -/
theorem keys_ofList (pairs : List (String × α)) : keys (ofList pairs) = (keys pairs).eraseDups :=
  keys_putAll (by simp) pairs

theorem get?_ofList (pairs : List (String × α)) (key : String) :
    get? (ofList pairs) key = get? pairs.reverse key := by
  rw [ofList, get?_putAll]
  simp

/-- Of the pairs with one key the last one is in the dictionary. -/
theorem get?_ofList_eq_some_iff {pairs : List (String × α)} {key : String} {v : α} :
    get? (ofList pairs) key = some v ↔
      ∃ before after, pairs = before ++ (key, v) :: after ∧ key ∉ keys after := by
  rw [get?_ofList, get?_eq_some_iff]
  constructor
  · rintro ⟨before, after, hsplit, hbefore⟩
    refine ⟨after.reverse, before.reverse, ?_, by simpa [keys] using hbefore⟩
    rw [← List.reverse_reverse pairs, hsplit]
    simp
  · rintro ⟨before, after, rfl, hafter⟩
    exact ⟨after.reverse, before.reverse, by simp, by simpa [keys] using hafter⟩

theorem putAll_of_nodup {es new : Entries α} (h : (keys (es ++ new)).Nodup) :
    putAll es new = es ++ new := by
  induction new generalizing es with
  | nil => simp [putAll]
  | cons e new ih =>
    have hsplit : es ++ e :: new = (es ++ [e]) ++ new := by simp
    have hfresh : e.1 ∉ keys es := by
      rw [keys, List.map_append, List.nodup_append] at h
      exact fun hmem => h.2.2 _ hmem _ (by simp) rfl
    have hput : put es e.1 e.2 = es ++ [e] := by simpa [put] using put_append hfresh [] e.2
    have hstep : putAll es (e :: new) = putAll (put es e.1 e.2) new := rfl
    rw [hstep, hput, ih (hsplit ▸ h), hsplit]

theorem ofList_of_nodup {pairs : List (String × α)} (h : (keys pairs).Nodup) :
    ofList pairs = pairs :=
  putAll_of_nodup (by simpa using h)

theorem get?_ofList_of_mem {pairs : List (String × α)} {key : String} {v : α}
    (hkeys : (keys pairs).Nodup) (h : (key, v) ∈ pairs) : get? (ofList pairs) key = some v := by
  have hreverse : (keys pairs.reverse).Nodup :=
    ((List.reverse_perm pairs).map _).nodup_iff.mpr hkeys
  rw [get?_ofList]
  exact get?_of_mem hreverse (List.mem_reverse.mpr h)

section MapValues

variable {β : Type} (f : α → β)

theorem mapValues_put (es : Entries α) (key : String) (v : α) :
    (put es key v).mapValues f = put (es.mapValues f) key (f v) := by
  induction es with
  | nil => rfl
  | cons e es ih =>
    obtain ⟨k, w⟩ := e
    change _ = put ((k, f w) :: mapValues f es) key (f v)
    rw [put, put]
    split
    · rfl
    · rw [← ih]
      rfl

theorem mapValues_putAll (es new : Entries α) :
    (putAll es new).mapValues f = putAll (es.mapValues f) (new.mapValues f) := by
  induction new generalizing es with
  | nil => rfl
  | cons e new ih =>
    have hstep : putAll es (e :: new) = putAll (put es e.1 e.2) new := rfl
    rw [hstep, ih, mapValues_put]
    rfl

theorem mapValues_ofList (pairs : List (String × α)) :
    (ofList pairs).mapValues f = ofList (Entries.mapValues f pairs) :=
  mapValues_putAll f [] pairs

end MapValues

/-- Writing what stands under a key already changes nothing. -/
theorem put_of_get? {es : Entries α} {key : String} {v : α} (h : get? es key = some v) :
    put es key v = es := by
  induction es with
  | nil => cases h
  | cons e es ih =>
    obtain ⟨k, w⟩ := e
    rw [get?_cons] at h
    by_cases hk : k = key
    · rw [if_pos hk] at h
      cases h
      rw [put, if_pos hk]
    · rw [if_neg hk] at h
      rw [put, if_neg hk, ih h]

/-- The dictionary with a function applied to what stands under a key. -/
def modify (es : Entries α) (key : String) (f : α → α) : Entries α :=
  match get? es key with
  | some v => put es key (f v)
  | none => es

section Modify

variable {es : Entries α} {key : String} {f : α → α}

theorem modify_of_get? {v : α} (h : get? es key = some v) : modify es key f = put es key (f v) := by
  rw [modify, h]

theorem get?_modify (es : Entries α) (key : String) (f : α → α) (other : String) :
    get? (modify es key f) other =
      if other = key then (get? es key).map f else get? es other := by
  rw [modify]
  cases hget : get? es key with
  | none =>
    by_cases ho : other = key
    · simp [ho, hget]
    · simp [ho]
  | some v => exact get?_put es key other (f v)

theorem keys_modify (es : Entries α) (key : String) (f : α → α) :
    keys (modify es key f) = keys es := by
  rw [modify]
  cases hget : get? es key with
  | none => rfl
  | some v => exact keys_put_of_get? hget (f v)

theorem modify_eq_self (h : ∀ v, get? es key = some v → f v = v) : modify es key f = es := by
  cases hget : get? es key with
  | none => rw [modify, hget]
  | some v => rw [modify_of_get? hget, h v hget, put_of_get? hget]

end Modify

/-- The dictionary with functions applied to what stands under their keys, one after the other. -/
def modifyAll (es : Entries α) (changes : Entries (α → α)) : Entries α :=
  changes.foldl (fun es (key, f) => modify es key f) es

section ModifyAll

variable {changes : Entries (α → α)}

theorem keys_modifyAll (es : Entries α) (changes : Entries (α → α)) :
    keys (modifyAll es changes) = keys es := by
  induction changes generalizing es with
  | nil => rfl
  | cons change changes ih => exact (ih _).trans (keys_modify es change.1 change.2)

theorem get?_modifyAll_of_not_mem {key : String} (es : Entries α) (h : key ∉ keys changes) :
    get? (modifyAll es changes) key = get? es key := by
  induction changes generalizing es with
  | nil => rfl
  | cons change changes ih =>
    rw [keys_cons, List.mem_cons, not_or] at h
    exact (ih _ h.2).trans ((get?_modify es change.1 change.2 key).trans (if_neg h.1))

/-- Where keys are distinct, each function is applied to what stood under its key at first. -/
theorem get?_modifyAll_of_mem {key : String} {f : α → α} (es : Entries α)
    (hkeys : (keys changes).Nodup) (h : (key, f) ∈ changes) :
    get? (modifyAll es changes) key = (get? es key).map f := by
  induction changes generalizing es with
  | nil => cases h
  | cons change changes ih =>
    rw [keys_cons, List.nodup_cons] at hkeys
    rcases List.mem_cons.mp h with rfl | hmem
    · have hrest : get? (modify es key f) key = (get? es key).map f :=
        (get?_modify es key f key).trans (if_pos rfl)
      exact (get?_modifyAll_of_not_mem _ hkeys.1).trans hrest
    · have hne : key ≠ change.1 := fun heq => hkeys.1 (heq ▸ mem_keys.mpr ⟨f, hmem⟩)
      have hrest : get? (modify es change.1 change.2) key = get? es key :=
        (get?_modify es change.1 change.2 key).trans (if_neg hne)
      exact (ih _ hkeys.2 hmem).trans (congrArg (Option.map f) hrest)

theorem modifyAll_eq_self {es : Entries α}
    (h : ∀ key f, (key, f) ∈ changes → ∀ v, get? es key = some v → f v = v) :
    modifyAll es changes = es := by
  induction changes with
  | nil => rfl
  | cons change changes ih =>
    have hfirst : modify es change.1 change.2 = es :=
      modify_eq_self (h change.1 change.2 List.mem_cons_self)
    have hrest := ih fun key f hmem => h key f (List.mem_cons_of_mem _ hmem)
    exact (congrArg (fun es => modifyAll es changes) hfirst).trans hrest

/-- Functions that change nothing when they are applied again change nothing together. -/
theorem modifyAll_modifyAll {es : Entries α} (hkeys : (keys changes).Nodup)
    (h : ∀ key f, (key, f) ∈ changes → ∀ v, f (f v) = f v) :
    modifyAll (modifyAll es changes) changes = modifyAll es changes := by
  refine modifyAll_eq_self fun key f hmem v hv => ?_
  rw [get?_modifyAll_of_mem es hkeys hmem] at hv
  obtain ⟨w, -, rfl⟩ := Option.map_eq_some_iff.mp hv
  exact h key f hmem w

end ModifyAll

end PanelSearch.Entries
