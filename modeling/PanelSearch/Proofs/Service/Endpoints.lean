import PanelSearch.Proofs.Text.Replace
import PanelSearch.Proofs.Text.Trim
import PanelSearch.Service.Resource
import PanelSearch.Web.Address

/-! Where calls that are passed on lead to. A path is checked as it was given, and the endpoint is
decided by the URL that is made of it: leading slashes are dropped, and a query or a fragment is
none of the endpoint. -/

namespace PanelSearch

open Text

theorem occursIn_iff {part cs : List Char} : occursIn part cs = true ↔ part <:+: cs := by
  induction cs with
  | nil => rw [occursIn, List.isEmpty_iff, List.infix_nil]
  | cons c cs ih =>
    rw [occursIn, Bool.or_eq_true, List.isPrefixOf_iff_prefix, ih, List.infix_cons_iff]

namespace Resource

/-- What the paths to the metadata of indexes begin with. -/
def indexPart : List Char := "indexes/".toList

/-- The marks at which a query or a fragment begins. -/
def endsPath (c : Char) : Bool := c = '?' || c = '#'

/-- The part of a URL behind its base and a slash, up to a query or a fragment. -/
def endpoint (base url : String) : List Char :=
  ((url.toList.drop (Datasource.baseOf base).toList.length).drop 1).takeWhile (!endsPath ·)

/-- The endpoints that calls are meant to be limited to: the version, the metadata of indexes, and
batches. -/
inductive Listed : List Char → Prop where
  | version : Listed []
  | batch : Listed batchPath.toList
  | index (rest : List Char) : Listed (indexPart ++ rest)

theorem listed_iff (cs : List Char) :
    Listed cs ↔ cs = [] ∨ cs = batchPath.toList ∨ indexPart <+: cs := by
  constructor
  · rintro (_ | _ | rest)
    · exact .inl rfl
    · exact .inr (.inl rfl)
    · exact .inr (.inr (List.prefix_append indexPart rest))
  · rintro (rfl | rfl | ⟨rest, rfl⟩)
    · exact .version
    · exact .batch
    · exact .index rest

instance : DecidablePred Listed := fun cs => decidable_of_iff _ (listed_iff cs).symm

/-- What the check asks of a path. -/
def IsPassed (path : String) : Prop :=
  path = "" ∨ path = batchPath ∨ indexPart <:+: path.toList

/-- The passed paths that lead to a listed endpoint. -/
inductive KeepsToList : List Char → Prop where
  | version : KeepsToList []
  | batch : KeepsToList batchPath.toList
  | index (slashes rest : List Char) (hslash : ∀ c ∈ slashes, c = '/') :
    KeepsToList (slashes ++ (indexPart ++ rest))
  /-- What the check looks for stands in a query or a fragment. -/
  | behind (slashes front rest : List Char) (mark : Char) (hslash : ∀ c ∈ slashes, c = '/')
    (hfront : front = [] ∨ front = batchPath.toList) (hmark : endsPath mark = true)
    (hpart : indexPart <:+: rest) : KeepsToList (slashes ++ (front ++ mark :: rest))

theorem isAllowed_iff (path : String) : isAllowed path = true ↔ IsPassed path := by
  unfold isAllowed IsPassed
  rw [Bool.or_eq_true, Bool.or_eq_true, String.isEmpty_iff, occursIn_iff, beq_iff_eq, or_assoc,
    or_comm (a := _ <:+: _)]
  rfl

/-! ### The endpoint of a path -/

/-- The endpoint that a path leads to. -/
def endpointOf (path : List Char) : List Char :=
  (path.dropWhile (· = '/')).takeWhile (!endsPath ·)

theorem base_isPrefix_url (base path : String) :
    (Datasource.baseOf base).toList <+: (url base path).toList := by
  unfold url
  split
  · exact List.prefix_rfl
  · simp [String.toList_append, List.append_assoc]

theorem endpoint_url (base path : String) :
    endpoint base (url base path) = endpointOf path.toList := by
  unfold endpoint endpointOf url
  split
  next h =>
    rw [String.isEmpty_iff.mp h]
    simp
  next => simp [String.toList_append, List.append_assoc]

/-- Slashes at the front are none of the endpoint, and the first mark ends it. -/
theorem endpointOf_append {slashes front rest : List Char} (hslash : ∀ c ∈ slashes, c = '/')
    (hhead : ∀ c, (front ++ rest).head? = some c → c ≠ '/')
    (hfront : ∀ c ∈ front, endsPath c = false) :
    endpointOf (slashes ++ (front ++ rest)) = front ++ rest.takeWhile (!endsPath ·) := by
  rw [endpointOf, List.dropWhile_append_of_pos (by simpa using hslash),
    dropWhile_eq_self (by simpa using hhead), List.takeWhile_append_of_pos (by simpa using hfront)]

theorem exists_endpointOf (path : List Char) : ∃ slashes rest, (∀ c ∈ slashes, c = '/') ∧
    path = slashes ++ (endpointOf path ++ rest) ∧ ∀ c, rest.head? = some c → endsPath c = true := by
  refine ⟨path.takeWhile (· = '/'), (path.dropWhile (· = '/')).dropWhile (!endsPath ·), ?_, ?_, ?_⟩
  · exact fun c hc => by simpa using List.mem_takeWhile_imp hc
  · rw [endpointOf, List.takeWhile_append_dropWhile, List.takeWhile_append_dropWhile]
  · exact fun c hc => by simpa using not_of_head?_dropWhile hc

theorem not_endsPath_of_mem_indexPart : ∀ c ∈ indexPart, endsPath c = false := by
  have hall : indexPart.all (!endsPath ·) = true := by decide +kernel
  simpa using hall

theorem not_endsPath_of_mem_front {front : List Char} (h : front = [] ∨ front = batchPath.toList) :
    ∀ c ∈ front, endsPath c = false := by
  have hall : front.all (!endsPath ·) = true := by
    obtain rfl | rfl := h <;> decide +kernel
  simpa using hall

theorem indexPart_notInfix {front : List Char} (h : front = [] ∨ front = batchPath.toList) :
    ¬indexPart <:+: front := by
  obtain rfl | rfl := h <;> decide +kernel

theorem not_mem_indexPart_of_endsPath {mark : Char} (h : endsPath mark = true) : mark ∉ indexPart :=
  fun hmem => by simp [not_endsPath_of_mem_indexPart mark hmem] at h

theorem KeepsToList.listed {path : List Char} (h : KeepsToList path) :
    Listed (endpointOf path) := by
  cases h with
  | version => exact .version
  | batch =>
    have hbatch : endpointOf batchPath.toList = batchPath.toList := by decide +kernel
    exact hbatch ▸ .batch
  | index slashes rest hslash =>
    have hhead : ∀ c, (indexPart ++ rest).head? = some c → c ≠ '/' := by
      rintro c hc rfl
      cases hc
    rw [endpointOf_append hslash hhead not_endsPath_of_mem_indexPart]
    exact .index _
  | behind slashes front rest mark hslash hfront hmark hpart =>
    have hhead : ∀ c, (front ++ mark :: rest).head? = some c → c ≠ '/' := by
      rintro c hc rfl
      obtain rfl | rfl := hfront
      · cases hc
        revert hmark
        decide
      · cases hc
    rw [endpointOf_append hslash hhead (not_endsPath_of_mem_front hfront),
      List.takeWhile_cons_of_neg (by simp [hmark]), List.append_nil]
    obtain rfl | rfl := hfront
    · exact .version
    · exact .batch

/-- A passed path whose endpoint is the version or that of batches is kept: what the check looks for
is no part of the slashes and the endpoint, so if it is there it stands behind a mark. -/
theorem keepsToList_of_endpointOf {path : String} (hpassed : IsPassed path)
    (hfront : endpointOf path.toList = [] ∨ endpointOf path.toList = batchPath.toList) :
    KeepsToList path.toList := by
  rcases hpassed with rfl | rfl | hpart
  · exact .version
  · exact .batch
  · obtain ⟨slashes, rest, hslash, hpath, hmark⟩ := exists_endpointOf path.toList
    have hinitial : 'i' ∉ slashes := fun hmem => absurd (hslash _ hmem) (by decide)
    rw [hpath] at hpart ⊢
    have hbehind := infix_of_infix_append_of_head rfl hinitial hpart
    cases rest with
    | nil =>
      rw [List.append_nil] at hbehind
      exact absurd hbehind (indexPart_notInfix hfront)
    | cons mark rest =>
      have hends := hmark mark rfl
      rcases infix_or_infix_of_append_cons (not_mem_indexPart_of_endsPath hends) hbehind with h | h
      · exact absurd h (indexPart_notInfix hfront)
      · exact .behind slashes _ rest mark hslash hfront hends h

/-- A passed path leads to a listed endpoint exactly if it is kept. -/
theorem listed_endpointOf_iff {path : String} (hpassed : IsPassed path) :
    Listed (endpointOf path.toList) ↔ KeepsToList path.toList := by
  refine ⟨fun h => ?_, KeepsToList.listed⟩
  generalize hfront : endpointOf path.toList = front at h
  cases h with
  | version => exact keepsToList_of_endpointOf hpassed (.inl hfront)
  | batch => exact keepsToList_of_endpointOf hpassed (.inr hfront)
  | index more =>
    obtain ⟨slashes, rest, hslash, hpath, -⟩ := exists_endpointOf path.toList
    rw [hpath, hfront, List.append_assoc]
    exact .index slashes (more ++ rest) hslash

end Resource

namespace Service

open Resource

/-- A call is passed on or refused by its path alone. A refused one changes nothing. A call that is
passed on is made below the base, and its endpoint is the version, that of the metadata of indexes
or that of batches exactly if its path keeps to the list: other paths are passed too, since the
check takes `indexes/` anywhere in the path. -/
theorem relay_endpoint_listed_iff (s : Service) (base : String) (c : RelayedCall) :
    (IsPassed c.path ∧ ∃ url body,
      (s.relay base c).2.sent = s.sent ++ [.relay c.method url body c.parameters] ∧
      (Datasource.baseOf base).toList <+: url.toList ∧
      (Listed (endpoint base url) ↔ KeepsToList c.path.toList)) ∨
    (¬IsPassed c.path ∧ s.relay base c = (.error (.forbidden c.path), s)) := by
  by_cases h : IsPassed c.path
  · refine .inl ⟨h, url base c.path, c.body.filter fun body => !body.isEmpty, ?_,
      base_isPrefix_url base c.path, ?_⟩
    · rw [relay, if_pos ((isAllowed_iff c.path).mpr h), ← sent_call]
      cases hcall : s.call (.relay c.method (url base c.path)
        (c.body.filter fun body => !body.isEmpty) c.parameters) with
      | mk outcome t => cases outcome <;> simp only [hcall]
    · rw [endpoint_url]
      exact listed_endpointOf_iff h
  · exact .inr ⟨h, by rw [relay, if_neg (mt (isAllowed_iff c.path).mp h)]⟩

/-- What the check looks for may stand in the query of a call to another endpoint. -/
theorem relay_cluster_query :
    (({ datasource := ⟨"http://qw/api/v1", "logs", {}, 5, 3, false⟩ } : Service).relay
      "http://qw/api/v1" ⟨"GET", "cluster?indexes/", none, none⟩).2.sent =
        [.relay "GET" "http://qw/api/v1/cluster?indexes/" none none] ∧
    endpoint "http://qw/api/v1" "http://qw/api/v1/cluster?indexes/" = "cluster".toList ∧
    ¬Listed "cluster".toList := by
  decide +kernel

/-- A listed endpoint is no listed address: in an address two dots lead back. -/
example : Listed (endpointOf "indexes/../cluster".toList) ∧
    (Address.ofText? (url "http://qw/api/v1" "indexes/../cluster").toList).map (·.path) =
      some "/api/v1/cluster".toList := by
  decide +kernel

end Service

end PanelSearch
