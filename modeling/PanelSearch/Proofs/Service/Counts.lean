import PanelSearch.Proofs.Batch.Framing
import PanelSearch.Proofs.Service.RefIds
import PanelSearch.Proofs.Service.Runs

/-! The counts of a run. Every batch that was sent is counted once, as answered or as refused, and
every error among the results of an ask is counted once, under the one kind of error that the ask
ended with. -/

namespace PanelSearch

open Batch Traversal

/-- The number of searches in a batch: each of them has two lines. -/
def Call.searches : Call → Nat
  | batch _ body => (utf8 body.toList).count newline / 2
  | _ => 0

/-- The batches among calls. -/
def posts (exchanges : List (Call × Outcome)) : List (Call × Outcome) :=
  exchanges.filter (·.1.isBatch)

namespace Tally

/-- The counts after batches, from the counts before them. -/
structure Counted (before after : Tally) (posts : List (Call × Outcome)) : Prop where
  answered : after.answered = before.answered + posts.countP (·.2.isAccepted)
  refused : after.refused = before.refused + posts.countP (!·.2.isAccepted)
  lastBatch : after.lastBatch = (posts.getLast?.map (·.1.searches)).getD before.lastBatch

theorem Counted.refl (t : Tally) : Counted t t [] := ⟨rfl, rfl, rfl⟩

theorem Counted.trans {t u v : Tally} {xs ys : List (Call × Outcome)} (h1 : Counted t u xs)
    (h2 : Counted u v ys) : Counted t v (xs ++ ys) := by
  refine ⟨?_, ?_, ?_⟩
  · rw [h2.answered, h1.answered, List.countP_append, Nat.add_assoc]
  · rw [h2.refused, h1.refused, List.countP_append, Nat.add_assoc]
  · rw [h2.lastBatch, h1.lastBatch, List.getLast?_append]
    cases ys.getLast? <;> rfl

theorem Counted.batches {t u : Tally} {xs : List (Call × Outcome)} (h : Counted t u xs) :
    u.batches = t.batches + xs.length := by
  have hlength := List.length_eq_countP_add_countP (fun e : Call × Outcome => e.2.isAccepted)
    (l := xs)
  have hrefused : xs.countP (fun e => decide ¬e.2.isAccepted = true) =
      xs.countP (!·.2.isAccepted) := by simp
  rw [Tally.batches, Tally.batches, h.answered, h.refused]
  omega

theorem counted_countErrors (t : Tally) (kind : ErrorKind) (count : Nat) :
    Counted t (t.countErrors kind count) [] := ⟨by simp, by simp, by simp⟩

theorem counted_countBatch {t : Tally} {call : Call} {outcome : Outcome} {size : Nat}
    (h : call.searches = size) :
    Counted t (t.countBatch outcome.isAccepted size) [(call, outcome)] := by
  cases haccepted : outcome.isAccepted <;>
    exact ⟨by simp [countBatch, haccepted], by simp [countBatch, haccepted],
      by simp [countBatch, h]⟩

/-- The count of errors under the name of a kind. -/
def errorsUnder (t : Tally) (name : String) : Nat := (t.errors.get? name).getD 0

theorem errorsUnder_countErrors (t : Tally) (kind : ErrorKind) (count : Nat) (name : String) :
    (t.countErrors kind count).errorsUnder name =
      t.errorsUnder name + if name = kind.name then count else 0 := by
  unfold countErrors
  split
  · rename_i hzero
    simp [hzero]
  · rw [errorsUnder, Entries.get?_put]
    split
    · rename_i hname
      rw [hname]
      rfl
    · rfl

theorem foldl_errors (es : Entries Nat) (n : Nat) :
    es.foldl (fun n e => n + e.2) n = n + es.foldl (fun n e => n + e.2) 0 := by
  induction es generalizing n with
  | nil => rfl
  | cons e es ih =>
    rw [List.foldl_cons, List.foldl_cons, ih, ih (0 + e.2), Nat.zero_add, Nat.add_assoc]

theorem foldl_errors_put (es : Entries Nat) (key : String) (n : Nat) :
    (es.put key n).foldl (fun n e => n + e.2) 0 + (es.get? key).getD 0 =
      es.foldl (fun n e => n + e.2) 0 + n := by
  induction es with
  | nil => simp [Entries.put]
  | cons e es ih =>
    obtain ⟨k, m⟩ := e
    by_cases hk : k = key
    · simp only [Entries.put, Entries.get?, hk, if_true, List.foldl_cons, Option.getD_some]
      rw [foldl_errors es (0 + n), foldl_errors es (0 + m)]
      omega
    · simp only [Entries.put, Entries.get?, hk, if_false, List.foldl_cons]
      rw [foldl_errors, foldl_errors es (0 + m)]
      omega

theorem allErrors_countErrors (t : Tally) (kind : ErrorKind) (count : Nat) :
    (t.countErrors kind count).allErrors = t.allErrors + count := by
  unfold countErrors
  split
  · rename_i hzero
    rw [hzero, Nat.add_zero]
  · have hput := foldl_errors_put t.errors kind.name (t.errorsOf kind + count)
    show (t.errors.put kind.name (t.errorsOf kind + count)).foldl _ 0 = t.errors.foldl _ 0 + count
    rw [errorsOf] at hput ⊢
    omega

/-- The counts after an ask that gave results, from the counts before it: the results that are
errors are counted under one kind. -/
structure CountsErrors (before after : Tally) (results : Entries QueryResult) : Prop where
  total : after.allErrors = before.allErrors + results.countP (·.2.error.isSome)
  single : ∃ kind : ErrorKind, ∀ name, after.errorsUnder name =
    before.errorsUnder name + if name = kind.name then results.countP (·.2.error.isSome) else 0

theorem countsErrors_of_eq {before middle after : Tally} {kind : ErrorKind}
    {results : Entries QueryResult} (hmiddle : middle.errors = before.errors)
    (hafter : after = middle.countErrors kind (errorCount results)) :
    CountsErrors before after results := by
  have hcount : errorCount results = results.countP (·.2.error.isSome) :=
    List.countP_eq_length_filter.symm
  have hall : middle.allErrors = before.allErrors := by rw [allErrors, allErrors, hmiddle]
  have hunder : ∀ name, middle.errorsUnder name = before.errorsUnder name := fun name => by
    rw [errorsUnder, errorsUnder, hmiddle]
  subst hafter
  refine ⟨?_, kind, fun name => ?_⟩
  · rw [allErrors_countErrors, hall, hcount]
  · rw [errorsUnder_countErrors, hunder, hcount]

end Tally

/-- The RefIDs of queries are distinct. Those that are texts are shown as they are. -/
def HasDistinctRefIds (raws : List Json) : Prop := (raws.map shownRefId).Nodup

instance (raws : List Json) : Decidable (HasDistinctRefIds raws) :=
  inferInstanceAs (Decidable (raws.map shownRefId).Nodup)

theorem errorCount_refusals {raws : List Json} (hids : HasDistinctRefIds raws) (status : Int)
    (message : String) : errorCount (QueryResult.refusals raws status message) = raws.length := by
  have hkeys : (Entries.keys
      (raws.map fun raw => (shownRefId raw, QueryResult.failed message status))).Nodup := by
    rw [Entries.keys, List.map_map]
    exact hids
  have hall : ∀ r ∈ raws.map fun raw => (shownRefId raw, QueryResult.failed message status),
      r.2.error.isSome = true := by
    intro r hr
    obtain ⟨raw, -, rfl⟩ := List.mem_map.mp hr
    rfl
  rw [errorCount, QueryResult.refusals, Entries.ofList_of_nodup hkeys,
    List.filter_eq_self.mpr hall, List.length_map]

namespace Service

open Tally

/-- The queries are read, the time field is known as far as it can be, and the searches are
built. -/
def Builds (s : Service) (a : Ask) : Prop :=
  ∃ qs known requests, a.raws ≠ [] ∧ (s.facing a).Prepares a.rangeFrom a.rangeTo a.raws qs known ∧
    SearchRequest.ofQueries known.datasource.target qs = .ok requests

variable {s known : Service} {a : Ask}

theorem searches_batchCall (s : Service) (entries : List Batch.Entry) :
    (s.batchCall entries).searches = entries.length := by
  have hcount := count_payload entries
  rw [payload] at hcount
  rw [batchCall, Call.searches, String.toList_ofList, hcount]
  omega

theorem Concludes.counted {raws : List Json} {r : Except ServiceError (Entries QueryResult)}
    {after : Service} (h : Concludes raws s r after) : Counted s.tally after.tally [] := by
  cases h with
  | stopped => exact .refl _
  | refused => exact counted_countErrors ..
  | answered => exact counted_countErrors ..

/-- When the time field is known as far as it can be, no batch has been sent, and the outcome of the
next call is the one at its position. -/
theorem Discovery.pending {r : Except ServiceError Unit} (h : (s.facing a).Discovery r known) :
    posts (a.exchanged known.sent) = [] ∧
      known.outcomes.headD .silence = a.outcomes.getD known.sent.length .silence := by
  have hsent : (s.facing a).sent = [] := rfl
  have houtcomes : (s.facing a).outcomes = a.outcomes := rfl
  rcases h.calls with ⟨hcalls, hnext⟩ | ⟨hcalls, hnext⟩
  · rw [hcalls, hnext, hsent, houtcomes]
    refine ⟨rfl, ?_⟩
    cases a.outcomes <;> rfl
  · rw [hcalls, hnext, hsent, houtcomes, Ask.exchanged_concat]
    constructor
    · simp [posts, Ask.exchanged, isBatch_metadataCall]
    · cases a.outcomes with
      | nil => rfl
      | cons o os => cases os <;> rfl

theorem posts_append (xs ys : List (Call × Outcome)) : posts (xs ++ ys) = posts xs ++ posts ys :=
  List.filter_append ..

/-- The batches that an ask sends, and what is counted of them. -/
inductive Outgoing (s : Service) (a : Ask) : Prop
  | none (unbuilt : ¬s.Builds a) (sent : posts (s.exchanges a) = [])
    (counted : Counted s.tally (s.after a).tally [])
  | one {post : Call × Outcome} (built : s.Builds a) (sent : posts (s.exchanges a) = [post])
    (counted : Counted s.tally (s.after a).tally [post])

theorem outgoing_of_unsent {r : Except ServiceError Unit}
    (hdiscovery : (s.facing a).Discovery r known)
    (ended : Concludes a.raws known (s.results a) (s.after a)) (hunbuilt : ¬s.Builds a) :
    s.Outgoing a := by
  refine .none hunbuilt ?_ ?_
  · rw [exchanges, ended.sent]
    exact hdiscovery.pending.1
  · have hcounted := ended.counted
    rwa [hdiscovery.tally] at hcounted

theorem outgoing_of_sent {qs : List Query} {requests : List SearchRequest}
    {entries : List Batch.Entry} (hbuilt : s.Builds a)
    (hprepared : (s.facing a).Prepares a.rangeFrom a.rangeTo a.raws qs known)
    (hencoded : Batch.ofRequests requests = .ok entries)
    (ended : Concludes a.raws ((known.call (known.batchCall entries)).2.countBatch
      (known.outcomes.headD .silence).isAccepted requests.length) (s.results a) (s.after a)) :
    s.Outgoing a := by
  have hdiscovery := discovery (s.facing a)
  rw [hprepared.discovered] at hdiscovery
  obtain ⟨hbefore, houtcome⟩ := hdiscovery.pending
  have hsent : (s.after a).sent = known.sent ++ [known.batchCall entries] :=
    ended.sent.trans (sent_call _ _)
  have hposts : posts (s.exchanges a) =
      [(known.batchCall entries, known.outcomes.headD .silence)] := by
    rw [exchanges, hsent, Ask.exchanged_concat, posts_append, hbefore, houtcome]
    rfl
  have hlength : entries.length = requests.length := (mapM_eq_ok_iff.mp hencoded).length_eq.symm
  have hsize : (known.batchCall entries).searches = requests.length :=
    (searches_batchCall known entries).trans hlength
  have htally : (known.call (known.batchCall entries)).2.tally = s.tally := by
    rw [tally_call, hdiscovery.tally]
    rfl
  have hended := ended.counted
  rw [countBatch, htally] at hended
  exact .one hbuilt hposts ((counted_countBatch hsize).trans hended)

theorem outgoing (s : Service) (a : Ask) : s.Outgoing a := by
  have hdiscovery := discovery (s.facing a)
  have hran : (s.facing a).Ran a (s.results a) (s.after a) := ran (s.facing a) a
  cases hran with
  | unread unread ended =>
    refine .none ?_ ?_ ended.counted
    · rintro ⟨qs, _, _, hne, hprepared, -⟩
      exact unread ⟨hne, qs, hprepared.read⟩
    · rw [exchanges, ended.sent]
      rfl
  | undiscovered read discovered ended =>
    rw [discovered] at hdiscovery
    refine outgoing_of_unsent hdiscovery ended ?_
    rintro ⟨_, _, _, -, hprepared, -⟩
    rw [hprepared.discovered] at discovered
    cases discovered
  | unbuilt read prepared built ended =>
    rw [prepared.discovered] at hdiscovery
    refine outgoing_of_unsent hdiscovery ended ?_
    rintro ⟨_, _, _, -, hprepared, hbuilt⟩
    have hqs := prepared.read.symm.trans hprepared.read
    have hknown := prepared.discovered.symm.trans hprepared.discovered
    cases hqs
    cases hknown
    rw [built] at hbuilt
    cases hbuilt
  | searched read prepared built encoded ended =>
    exact outgoing_of_sent ⟨_, _, _, read.1, prepared, built⟩ prepared encoded ended

theorem counted_after (s : Service) (a : Ask) :
    Counted s.tally (s.after a).tally (posts (s.exchanges a)) := by
  cases s.outgoing a with
  | none _ sent counted => rwa [sent]
  | one _ sent counted => rwa [sent]

theorem counted_afterAll (s : Service) (asks : List Ask) :
    Counted s.tally (s.afterAll asks).tally (posts (s.history asks)) := by
  induction asks generalizing s with
  | nil => exact .refl _
  | cons a asks ih =>
    rw [history, posts_append]
    exact (counted_after s a).trans (ih (s.after a))

theorem length_posts_exchanges (s : Service) (a : Ask) :
    (posts (s.exchanges a)).length ≤ 1 ∧ ((posts (s.exchanges a)).length = 1 ↔ s.Builds a) := by
  cases s.outgoing a with
  | none unbuilt sent =>
    rw [sent]
    exact ⟨Nat.zero_le 1, by simp [unbuilt]⟩
  | one built sent =>
    rw [sent]
    exact ⟨Nat.le_refl 1, by simp [built]⟩

theorem Concludes.countErrors {raws : List Json} {after : Service} {results : Entries QueryResult}
    (h : Concludes raws s (.ok results) after) (hids : HasDistinctRefIds raws) :
    ∃ kind, after.tally = s.tally.countErrors kind (errorCount results) := by
  cases h with
  | refused kind status message =>
    rw [errorCount_refusals hids]
    exact ⟨kind, rfl⟩
  | answered => exact ⟨.response, rfl⟩

/-- Until an ask ends no error is counted. -/
theorem Ran.concludes {r : Except ServiceError (Entries QueryResult)} {after : Service}
    (h : s.Ran a r after) :
    ∃ middle : Service, middle.tally.errors = s.tally.errors ∧ Concludes a.raws middle r after := by
  have hdiscovery := discovery s
  cases h with
  | unread unread ended => exact ⟨s, rfl, ended⟩
  | undiscovered read discovered ended =>
    rw [discovered] at hdiscovery
    exact ⟨_, by rw [hdiscovery.tally], ended⟩
  | unbuilt read prepared built ended =>
    rw [prepared.discovered] at hdiscovery
    exact ⟨_, by rw [hdiscovery.tally], ended⟩
  | searched read prepared built encoded ended =>
    rw [prepared.discovered] at hdiscovery
    refine ⟨_, ?_, ended⟩
    rw [countBatch, errors_countBatch, tally_call, hdiscovery.tally]

theorem countsErrors_after (s : Service) {a : Ask} (hids : HasDistinctRefIds a.raws)
    {results : Entries QueryResult} (hresults : s.results a = .ok results) :
    CountsErrors s.tally (s.after a).tally results := by
  have hran : (s.facing a).Ran a (s.results a) (s.after a) := ran (s.facing a) a
  rw [hresults] at hran
  obtain ⟨middle, hmiddle, ended⟩ := hran.concludes
  obtain ⟨kind, hafter⟩ := ended.countErrors hids
  exact countsErrors_of_eq hmiddle hafter

/-- After each ask of a run, the batches sent so far are the batches counted, and the results of
the ask that are errors are counted under one kind. An ask sends one batch, if its searches are
built, or none. -/
theorem counts_once (s : Service) (before : List Ask) (a : Ask) :
    (s.afterAll (before ++ [a])).tally.batches =
        s.tally.batches + (posts (s.history (before ++ [a]))).length ∧
      Counted s.tally (s.afterAll (before ++ [a])).tally (posts (s.history (before ++ [a]))) ∧
      (posts ((s.afterAll before).exchanges a)).length ≤ 1 ∧
      ((posts ((s.afterAll before).exchanges a)).length = 1 ↔ (s.afterAll before).Builds a) ∧
      (HasDistinctRefIds a.raws → ∀ results, (s.afterAll before).results a = .ok results →
        CountsErrors (s.afterAll before).tally (s.afterAll (before ++ [a])).tally results) := by
  have hcounted := counted_afterAll s (before ++ [a])
  obtain ⟨hmost, hone⟩ := length_posts_exchanges (s.afterAll before) a
  refine ⟨hcounted.batches, hcounted, hmost, hone, fun hids results hresults => ?_⟩
  rw [afterAll_append]
  exact countsErrors_after (s.afterAll before) hids hresults

/-- An ask that is answered, and then one whose batch gets no reply: two batches and one error. -/
theorem logLines_counts_once :
    HasDistinctRefIds (logLinesAsk []).raws ∧ ∃ results,
      ((knowing []).afterAll [logLinesAsk [.reply noResponses]]).results (logLinesAsk []) =
        .ok results ∧
      results.countP (·.2.error.isSome) = 1 ∧
      CountsErrors ((knowing []).afterAll [logLinesAsk [.reply noResponses]]).tally
        ((knowing []).afterAll [logLinesAsk [.reply noResponses], logLinesAsk []]).tally results ∧
      ((knowing []).afterAll [logLinesAsk [.reply noResponses], logLinesAsk []]).tally.batches =
        2 := by
  have hids : HasDistinctRefIds (logLinesAsk []).raws := by decide +kernel
  have herrors : (((knowing []).afterAll [logLinesAsk [.reply noResponses]]).results
      (logLinesAsk [])).toOption.map (·.countP (·.2.error.isSome)) = some 1 := by decide +kernel
  have hposts : (posts ((knowing []).history
      [logLinesAsk [.reply noResponses], logLinesAsk []])).length = 2 := by decide +kernel
  obtain ⟨hbatches, -, -, -, hcounts⟩ := counts_once (knowing [])
    [logLinesAsk [.reply noResponses]] (logLinesAsk [])
  cases hresults : ((knowing []).afterAll [logLinesAsk [.reply noResponses]]).results
      (logLinesAsk []) with
  | error e =>
    rw [hresults] at herrors
    cases herrors
  | ok results =>
    rw [hresults] at herrors
    exact ⟨hids, results, rfl, Option.some.inj herrors, hcounts hids results hresults,
      hbatches.trans (congrArg _ hposts)⟩

end Service

end PanelSearch
