import Strand.Proofs.Channel.Closing

/-! A receiver that collects. It takes so many values, then so many more, and at last all that come
until the channel is closed and drained. If nobody else receives, the lists that it collects are,
one behind the other, what the senders got accepted: a list ends with as many values as were asked
for or because there are none any more, and no value is lost between two of them. -/
namespace Strand
open History

/-- The answers that are answers to a job: of its kind, and no longer than the job allows. -/
inductive Job.Suits {α : Type} : Job α → Answer α → Prop
  | sent (value : α) (result : SendResult α) : Suits (.send value) (.sent result)
  | received (value : Option α) : Suits .receive (.received value)
  | collected {limit : Option Nat} {items : List α}
    (within : ∀ n, limit = some n → items.length ≤ n) : Suits (.collect limit) (.collected items)

/-- The values that an answer brings. -/
def Answer.values {α : Type} : Answer α → List α
  | .sent _ => []
  | .received value => value.toList
  | .collected items => items

/-- The list that an answer is, if it answers a collection. -/
def Answer.list? {α : Type} : Answer α → Option (List α)
  | .collected items => some items
  | _ => none

namespace Caller
variable {α : Type}

/-- The lists that a caller has collected. -/
def lists (c : Caller α) : List (List α) := c.answers.filterMap Answer.list?

/-- Every answer so far suits the job that it answers. -/
def Suited (program : List (Job α)) (c : Caller α) : Prop :=
  ∀ (i : Nat) (a : Answer α), c.answers[i]? = some a → ∃ job, program[i]? = some job ∧ job.Suits a

end Caller

section
variable {α : Type} {program : List (Job α)} {deeds : List (Deed α)} {c : Caller α} {job : Job α}
  {a : Answer α}

/-- A caller that has answered nothing but collections has as many answers as lists. -/
lemma Caller.answers_eq_lists (h : ∀ a ∈ c.answers, ∃ items, a = .collected items) :
    c.answers = c.lists.map .collected := by
  obtain ⟨jobs, items, answers⟩ := c
  induction answers with
  | nil => rfl
  | cons a answers ih =>
    obtain ⟨list, rfl⟩ := h a List.mem_cons_self
    have hrest := ih fun a ha => h a (List.mem_cons_of_mem _ ha)
    exact congrArg (Answer.collected list :: ·) hrest

lemma filterMap_delivered_map (items : List α) :
    (items.map fun value => Deed.received (some value)).filterMap Deed.delivered? = items := by
  simp [List.filterMap_map, Function.comp_def, Deed.delivered?]

/-- What a job reports of its answer tells of the same values as the answer. -/
lemma Job.Suits.delivered_report (suits : job.Suits a) :
    (job.report a).filterMap Deed.delivered? = a.values := by
  cases suits with
  | sent => rfl
  | received value => cases value <;> rfl
  | @collected limit items =>
    have hend : (if limit = some items.length then []
        else [Deed.received (none : Option α)]).filterMap Deed.delivered? = [] := by
      split <;> rfl
    rw [report, List.filterMap_append, filterMap_delivered_map, hend, List.append_nil,
      Answer.values]

lemma suited_of_no_answers (program : List (Job α)) (h : c.answers = []) : c.Suited program := by
  intro i a ha
  rw [h] at ha
  cases ha

namespace Caller.Suited

lemma tail {first : Job α} {b : Answer α} {rest : List (Answer α)}
    (suited : c.Suited (first :: program)) (h : c.answers = b :: rest) :
    (⟨c.jobs, c.items, rest⟩ : Caller α).Suited program := by
  intro i a ha
  have hsucc := suited (i + 1) a (by rw [h]; exact ha)
  simpa using hsucc

/-- An answer to the job in hand suits it, and the answers before it are left as they are. -/
lemma answer (told : Told program deeds c) (suited : c.Suited program)
    (hjob : c.jobs.head? = some job) (suits : job.Suits a) : (c.answer a).Suited program := by
  intro i b hb
  rcases Nat.lt_trichotomy i c.answers.length with hlt | rfl | hgt
  · exact suited i b (by rwa [Caller.answer, List.getElem?_append_left hlt] at hb)
  · rw [Caller.answer, List.getElem?_concat_length, Option.some.injEq] at hb
    subst hb
    rw [told.jobs_eq, List.head?_drop] at hjob
    exact ⟨job, hjob, suits⟩
  · rw [Caller.answer, List.getElem?_eq_none (by simp; omega)] at hb
    cases hb

/-- Receiving keeps to the limit of the collection in hand. -/
lemma receive (told : Told program deeds c) (suited : c.Suited program)
    (job : c.isReceiving = true) (outcome : Option α) : (c.receive outcome).Suited program := by
  rcases c.isReceiving_cases job with hjob | ⟨limit, hjob, hzero⟩
  · have hreceive : c.receive outcome = c.answer (.received outcome) := by
      simp [Caller.receive, hjob]
    rw [hreceive]
    exact answer told suited hjob (.received outcome)
  · have hlt : ∀ n, limit = some n → c.items.length < n := fun n hn =>
      told.length_lt_limit hjob hzero hn
    cases outcome with
    | none =>
      have hreceive : c.receive none = c.answer (.collected c.items) := by
        simp [Caller.receive, hjob]
      rw [hreceive]
      exact answer told suited hjob (.collected fun n hn => Nat.le_of_lt (hlt n hn))
    | some x =>
      have hreceive : c.receive (some x) = c.gather limit x := by simp [Caller.receive, hjob]
      rw [hreceive, Caller.gather]
      split
      · refine answer told suited hjob (.collected fun n hn => ?_)
        rw [List.length_append, List.length_singleton]
        exact hlt n hn
      · exact suited

theorem turn {s t : Shared Nat α} {who pick : Nat} {xs ys : List α} {deed : Option (Deed α)}
    {c' : Caller α} (told : Told program deeds c) (suited : c.Suited program)
    (h : Crowd.Turned s who pick c xs deed t c' ys) : c'.Suited program := by
  cases h with
  | waitsForRoom | waitsForValue => exact suited
  | turnedAway job | sends job => exact answer told suited (Caller.head_of_offer job) (.sent _ _)
  | findsEnd job | takes job => exact receive told suited job _
  | skips hjob => exact answer told suited hjob (.collected fun _ _ => Nat.zero_le _)

/-- The values that a caller's jobs report are those that its answers bring. -/
lemma delivered_reports (suited : c.Suited program) :
    ((List.zipWith Job.report program c.answers).flatten).filterMap Deed.delivered? =
      c.answers.flatMap Answer.values := by
  obtain ⟨jobs, items, answers⟩ := c
  induction answers generalizing program with
  | nil => simp
  | cons a answers ih =>
    obtain ⟨job, hjob, suits⟩ := suited 0 a rfl
    cases program with
    | nil => cases hjob
    | cons first program =>
      obtain rfl : first = job := Option.some.inj hjob
      rw [List.zipWith_cons_cons, List.flatten_cons, List.filterMap_append, suits.delivered_report,
        List.flatMap_cons, ih (suited.tail rfl)]

end Caller.Suited

end

/-- The jobs of a receiver that collects so many values at a time, and at last all that are left. -/
def collections {α : Type} (counts : List Nat) : List (Job α) :=
  counts.map (fun n => .collect (some n)) ++ [.collect none]

/-- Of all callers that have joined only `who` receives, by collections of these sizes. -/
structure SoleReceiver {α : Type} (history : List (Occurrence α)) (counts : List Nat) (who : Nat) :
    Prop where
  program : (programs history)[who]? = some (collections counts)
  others : ∀ (k : Nat) (jobs : List (Job α)), (programs history)[k]? = some jobs → k ≠ who →
    ∀ job ∈ jobs, ∃ value, job = .send value

lemma getElem?_collections {α : Type} {counts : List Nat} {i : Nat} {job : Job α}
    (h : (collections counts)[i]? = some job) :
    (∃ n, counts[i]? = some n ∧ job = .collect (some n)) ∨
      i = counts.length ∧ job = .collect none := by
  rcases Nat.lt_or_ge i counts.length with hlt | hge
  · rw [collections, List.getElem?_append_left (by rwa [List.length_map]), List.getElem?_map] at h
    obtain ⟨n, hn, rfl⟩ := Option.map_eq_some_iff.mp h
    exact .inl ⟨n, hn, rfl⟩
  · rw [collections, List.getElem?_append_right (by rwa [List.length_map]), List.length_map,
      List.getElem?_singleton] at h
    split at h
    · cases h
      exact .inr ⟨by omega, rfl⟩
    · cases h

namespace Crowd
variable {α : Type} {capacity who k : Nat} {counts : List Nat} {history : List (Occurrence α)}
  {c : Crowd α} {caller : Caller α} {program : List (Job α)}

theorem Run.suited (run : Run (ofChannel (Channel.ofCapacity capacity)) history c)
    (hcaller : c.callers[who]? = some caller) (hprogram : (programs history)[who]? = some program) :
    caller.Suited program := by
  induction run generalizing who caller program with
  | start => simp [ofChannel] at hcaller
  | @call history c jobs run ih =>
    have hprograms : programs (history ++ [.joined jobs]) = programs history ++ [jobs] := by
      simp [programs]
    rw [hprograms] at hprogram
    rcases Nat.lt_or_ge who c.callers.length with hlt | hge
    · rw [Crowd.call, List.getElem?_append_left hlt] at hcaller
      rw [List.getElem?_append_left (run.accounts.length_eq ▸ hlt)] at hprogram
      exact ih hcaller hprogram
    · -- The newcomer has answered nothing yet.
      rw [Crowd.call, List.getElem?_append_right hge, List.getElem?_singleton] at hcaller
      split at hcaller
      · cases hcaller
        exact suited_of_no_answers program rfl
      · cases hcaller
  | @turn history c d events k pick run step ih =>
    obtain ⟨acting, s, acting', ys, hacting, -, -, hturned, rfl⟩ := turn_cases run.books.holds step
    rw [programs_append, programs_entry, List.append_nil] at hprogram
    by_cases hk : k = who
    · subst hk
      rw [List.getElem?_set_self (List.getElem?_eq_some_iff.mp hacting).1, Option.some.injEq]
        at hcaller
      subst hcaller
      obtain ⟨other, hother, told⟩ := run.accounts.told k acting hacting
      rw [hprogram, Option.some.injEq] at hother
      subst hother
      exact (ih hacting hprogram).turn told hturned
    · rw [List.getElem?_set_ne hk] at hcaller
      exact ih hcaller hprogram
  | wake _ _ _ ih => exact ih hcaller hprogram
  | @close history c run ih =>
    refine ih hcaller ?_
    simpa [programs] using hprogram

/-- What was handed out to a caller is what its answers bring, and what it has in hand. -/
theorem Run.received_eq (run : Run (ofChannel (Channel.ofCapacity capacity)) history c)
    (hcaller : c.callers[who]? = some caller) :
    (deedsOf who history).filterMap Deed.delivered? =
      caller.answers.flatMap Answer.values ++ caller.items := by
  obtain ⟨program, hprogram, told⟩ := run.accounts.told who caller hcaller
  rw [told.deeds_eq, Caller.account, List.filterMap_append,
    (run.suited hcaller hprogram).delivered_reports, filterMap_delivered_map]

/-- Nothing is handed out to a caller that only sends. -/
lemma Run.received_of_sender (run : Run (ofChannel (Channel.ofCapacity capacity)) history c)
    (hcaller : c.callers[who]? = some caller) (hprogram : (programs history)[who]? = some program)
    (sends : ∀ job ∈ program, ∃ value, job = .send value) :
    (deedsOf who history).filterMap Deed.delivered? = [] := by
  obtain ⟨other, hother, told⟩ := run.accounts.told who caller hcaller
  rw [hprogram, Option.some.injEq] at hother
  subst hother
  have hitems : caller.items = [] := by
    by_contra hne
    obtain ⟨limit, hlimit, -⟩ := told.collecting hne
    rw [told.jobs_eq] at hlimit
    obtain ⟨value, hvalue⟩ := sends _ (List.mem_of_mem_drop (List.mem_of_mem_head? hlimit))
    cases hvalue
  rw [run.received_eq hcaller, hitems, List.append_nil, List.flatMap_eq_nil_iff]
  intro a ha
  obtain ⟨i, hi⟩ := List.mem_iff_getElem?.mp ha
  obtain ⟨job, hjob, suits⟩ := run.suited hcaller hprogram i a hi
  obtain ⟨value, rfl⟩ := sends job (List.mem_of_getElem? hjob)
  cases suits
  rfl

/-- A collection of nothing is over at once, without a look at the channel. -/
lemma Run.turn_of_zero (run : Run (ofChannel (Channel.ofCapacity capacity)) history c)
    (hcaller : c.callers[who]? = some caller)
    (hzero : caller.jobs.head? = some (.collect (some 0))) (pick : Nat) :
    c.turn who pick = some (c.update who c.shared (·.answer (.collected [])), []) := by
  have hparked : who ∉ c.shared.parked := by
    intro hparked
    rcases mem_parked.mp hparked with hsenders | hreceivers
    · obtain ⟨other, hother, hoffer⟩ := run.orderly.sender who hsenders
      rw [hcaller, Option.some.injEq] at hother
      subst hother
      simp [Caller.offer?, hzero] at hoffer
    · obtain ⟨other, hother, hreceiving⟩ := run.orderly.receiver who hreceivers
      rw [hcaller, Option.some.injEq] at hother
      subst hother
      simp [Caller.isReceiving, hzero] at hreceiving
  have hready : c.isReady who = true :=
    isReady_iff.mpr ⟨caller, hcaller, Caller.isFinished_of_head hzero, hparked⟩
  simp [Crowd.turn, hready, hcaller, hzero]

section
variable (run : Run (ofChannel (Channel.ofCapacity capacity)) history c)
  (sole : SoleReceiver history counts who)
include run sole

/-- All that was handed out went to the only receiver. -/
lemma Run.delivered_of_sole :
    (delivered history).map Prod.snd = (deedsOf who history).filterMap Deed.delivered? := by
  rw [filterMap_deedsOf, ← delivered]
  have hall : ∀ entry ∈ delivered history, entry.1 = who := by
    rintro ⟨k, value⟩ hmem
    by_contra hk
    rw [delivered, mem_select] at hmem
    rcases Nat.lt_or_ge k c.callers.length with hlt | hge
    · have hcaller := List.getElem?_eq_getElem hlt
      obtain ⟨jobs, hjobs, -⟩ := run.accounts.told k _ hcaller
      rw [run.received_of_sender hcaller hjobs (sole.others k jobs hjobs hk)] at hmem
      cases hmem
    · rw [run.accounts.stranger k hge] at hmem
      cases hmem
  rw [List.filter_eq_self.mpr fun entry hmem => decide_eq_true (hall entry hmem)]

variable (hcaller : c.callers[who]? = some caller)
include hcaller

lemma Run.told_of_sole : Told (collections counts) (deedsOf who history) caller := by
  obtain ⟨program, hprogram, told⟩ := run.accounts.told who caller hcaller
  rw [sole.program, Option.some.injEq] at hprogram
  exact hprogram ▸ told

/-- Each answer of the receiver is a list, which keeps to the size that was asked for. -/
lemma Run.answer_of_sole {i : Nat} {a : Answer α} (ha : caller.answers[i]? = some a) :
    ∃ items, a = .collected items ∧ ∀ n, counts[i]? = some n → items.length ≤ n := by
  obtain ⟨job, hjob, suits⟩ := run.suited hcaller sole.program i a ha
  rcases getElem?_collections hjob with ⟨n, hn, rfl⟩ | ⟨rfl, rfl⟩
  · cases suits with
    | @collected _ items within =>
      refine ⟨items, rfl, fun m hm => within m ?_⟩
      rw [← hn, hm]
  · cases suits with
    | @collected _ items within =>
      refine ⟨items, rfl, fun m hm => ?_⟩
      simp at hm

lemma Run.answers_of_sole : caller.answers = caller.lists.map .collected := by
  refine Caller.answers_eq_lists fun a ha => ?_
  obtain ⟨i, hi⟩ := List.mem_iff_getElem?.mp ha
  obtain ⟨items, hitems, -⟩ := run.answer_of_sole sole hcaller hi
  exact ⟨items, hitems⟩

lemma Run.length_lists : caller.lists.length = caller.answers.length := by
  rw [run.answers_of_sole sole hcaller, List.length_map]

lemma Run.getElem?_answers {i : Nat} {items : List α} :
    caller.answers[i]? = some (.collected items) ↔ caller.lists[i]? = some items := by
  rw [run.answers_of_sole sole hcaller, List.getElem?_map]
  simp

/-- All that was handed out is in the lists, and in the collection in hand. -/
lemma Run.delivered_eq_lists :
    (delivered history).map Prod.snd = caller.lists.flatten ++ caller.items := by
  rw [run.delivered_of_sole sole, run.received_eq hcaller, run.answers_of_sole sole hcaller,
    List.flatMap_map, List.flatten_eq_flatMap]
  rfl

/-- A list that is shorter than its limit, or has none, was ended by the end of the channel. -/
lemma Run.end_met {i : Nat} {limit : Option Nat} {items : List α}
    (hjob : (collections counts : List (Job α))[i]? = some (.collect limit))
    (hitems : caller.lists[i]? = some items) (short : limit ≠ some items.length) :
    c.shared.channel.closed = true ∧ c.shared.channel.ring.toList = [] := by
  have told := run.told_of_sole sole hcaller
  have hreport : (List.zipWith Job.report (collections counts) caller.answers)[i]? =
      some ((Job.collect limit).report (.collected items)) := by
    rw [List.getElem?_zipWith, hjob, (run.getElem?_answers sole hcaller).mpr hitems]
  have hmem : Deed.received none ∈ deedsOf who history := by
    rw [told.deeds_eq, Caller.account, List.mem_append]
    refine .inl (List.mem_flatten.mpr ⟨_, List.mem_of_getElem? hreport, ?_⟩)
    simp [Job.report, short]
  exact run.empty_after_end (mem_of_deedsOf hmem)

/-- When all collections are over, so is the one without a limit. -/
lemma Run.ended_of_sole (finished : caller.jobs = []) :
    caller.lists.length = counts.length + 1 ∧ c.shared.channel.closed = true ∧
      c.shared.channel.ring.toList = [] := by
  have told := run.told_of_sole sole hcaller
  have hlength : (collections counts : List (Job α)).length = counts.length + 1 := by
    simp [collections]
  have hle : counts.length < caller.answers.length := by
    have hdrop := told.jobs_eq.symm.trans finished
    rw [List.drop_eq_nil_iff, hlength] at hdrop
    omega
  obtain ⟨items, hitems, -⟩ := run.answer_of_sole sole hcaller (List.getElem?_eq_getElem hle)
  have hlast : (collections counts : List (Job α))[counts.length]? = some (.collect none) := by
    simp [collections]
  have hmet := run.end_met sole hcaller hlast
    ((run.getElem?_answers sole hcaller).mp ((List.getElem?_eq_getElem hle).trans (by rw [hitems])))
    (by simp)
  refine ⟨?_, hmet⟩
  -- No answer comes without a job.
  rw [run.length_lists sole hcaller]
  by_contra hne
  have hmore : counts.length + 1 < caller.answers.length := by omega
  obtain ⟨job, hjob, -⟩ := run.suited hcaller sole.program _ _ (List.getElem?_eq_getElem hmore)
  rw [List.getElem?_eq_none (by omega)] at hjob
  cases hjob

/-- As long as the receiver has something to do, it is about to collect. -/
lemma Run.head_of_sole (hne : caller.jobs ≠ []) :
    ∃ limit, caller.jobs.head? = some (.collect limit) := by
  obtain ⟨job, hjob⟩ := Option.isSome_iff_exists.mp (List.isSome_head?.mpr hne)
  have hplace := hjob
  rw [(run.told_of_sole sole hcaller).jobs_eq, List.head?_drop] at hplace
  rcases getElem?_collections hplace with ⟨n, -, rfl⟩ | ⟨-, rfl⟩
  · exact ⟨some n, hjob⟩
  · exact ⟨none, hjob⟩

/-- At rest it then waits for a value, since a collection of nothing could end. -/
lemma Run.isReceiving_of_sole (rest : ∀ k pick, c.turn k pick = none) (hne : caller.jobs ≠ []) :
    c.IsReceiving who := by
  obtain ⟨limit, hjob⟩ := run.head_of_sole sole hcaller hne
  have hzero : limit ≠ some 0 := by
    rintro rfl
    have hturn := run.turn_of_zero hcaller hjob 0
    rw [rest who 0] at hturn
    cases hturn
  exact ⟨caller, hcaller, by simp [Caller.isReceiving, hjob, hzero]⟩

/-- At rest the receiver has finished if the channel is closed, and waits for values otherwise. -/
lemma Run.rest_of_sole (rest : ∀ k pick, c.turn k pick = none) :
    (caller.jobs = [] ↔ c.shared.channel.closed = true) ∧
      (c.shared.channel.closed = false →
        who ∈ c.shared.receivers ∧ c.shared.channel.ring.toList = []) := by
  have atRest := run.atRest rest
  have hclosed : caller.jobs = [] → c.shared.channel.closed = true := fun finished =>
    (run.ended_of_sole sole hcaller finished).2.1
  have hwaits : caller.jobs ≠ [] → who ∈ c.shared.receivers ∧
      c.shared.channel.closed = false ∧ c.shared.channel.len = 0 := by
    intro hne
    have hreceiving := run.isReceiving_of_sole sole hcaller rest hne
    have hparked := (atRest.receiver who).mp hreceiving
    exact ⟨hparked, (atRest.receiver_iff who hreceiving).mp hparked⟩
  refine ⟨⟨hclosed, fun closed => ?_⟩, fun opened => ?_⟩
  · by_contra hne
    rw [(hwaits hne).2.1] at closed
    cases closed
  · obtain ⟨hparked, -, hlen⟩ := hwaits fun finished => by
      rw [hclosed finished] at opened
      cases opened
    have hbuffered : c.shared.channel.len = _ := run.books.holds.len_eq
    exact ⟨hparked, List.length_eq_zero_iff.mp (hbuffered ▸ hlen)⟩

end

/-- How a receiver that collects so many values at a time, and all that are left at last, stands at
one moment. -/
structure Collects (counts : List Nat) (history : List (Occurrence α)) (c : Crowd α) (who : Nat)
    (caller : Caller α) : Prop where
  /-- The collections are answered one after the other, each by a list. -/
  answers : caller.answers = caller.lists.map .collected
  jobs : caller.jobs = (collections counts).drop caller.lists.length
  /-- What has left the channel is in these lists or in the one in hand; all other values that were
  ever accepted are still buffered. -/
  delivered : (delivered history).map Prod.snd = caller.lists.flatten ++ caller.items
  accepted : (accepted history).map Prod.snd =
    caller.lists.flatten ++ caller.items ++ c.shared.channel.ring.toList
  /-- From the moment on at which a list is complete, it holds as many values as were asked for,
  or fewer on a channel that is closed and drained. -/
  sized : ∀ (i n : Nat) (items : List α), counts[i]? = some n → caller.lists[i]? = some items →
    items.length = n ∨
      items.length < n ∧ c.shared.channel.closed = true ∧ c.shared.channel.ring.toList = []
  /-- A collection that goes on has not yet taken as many values as it may. -/
  inHand : ∀ n, caller.jobs.head? = some (.collect (some n)) →
    caller.items = [] ∨ caller.items.length < n
  /-- The next turn of a collection of nothing ends it, and leaves the channel alone. -/
  zero : caller.jobs.head? = some (.collect (some 0)) → ∀ pick,
    c.turn who pick = some (c.update who c.shared (·.answer (.collected [])), [])
  /-- The last collection ends when the channel is closed and drained; then the lists together are
  all that was ever accepted. -/
  ended : caller.jobs = [] → caller.lists.length = counts.length + 1 ∧
    c.shared.channel.closed = true ∧ c.shared.channel.ring.toList = [] ∧
      (History.accepted history).map Prod.snd = caller.lists.flatten
  /-- Without a call or a close only so many turns follow; when none is left, the receiver is done
  if the channel is closed, and else it waits at an empty channel. -/
  bounded : ∀ n d, Turns n c d → n ≤ c.weight
  rest : (∀ k pick, c.turn k pick = none) →
    (caller.jobs = [] ↔ c.shared.channel.closed = true) ∧
      (c.shared.channel.closed = false →
        who ∈ c.shared.receivers ∧ c.shared.channel.ring.toList = [])

/-- At every moment of every run in which any callers send and the channel may be closed. -/
theorem Run.collects_all (run : Run (ofChannel (Channel.ofCapacity capacity)) history c)
    (sole : SoleReceiver history counts who) (hcaller : c.callers[who]? = some caller) :
    Collects counts history c who caller := by
  have told := run.told_of_sole sole hcaller
  have horder := run.books.order
  rw [run.delivered_eq_lists sole hcaller] at horder
  refine ⟨run.answers_of_sole sole hcaller, ?_, run.delivered_eq_lists sole hcaller, horder, ?_, ?_,
    run.turn_of_zero hcaller, fun finished => ?_, fun n d turns => ?_,
    run.rest_of_sole sole hcaller⟩
  · rw [told.jobs_eq, run.length_lists sole hcaller]
  · intro i n items hn hitems
    have hanswer := (run.getElem?_answers sole hcaller).mpr hitems
    obtain ⟨list, hlist, hle⟩ := run.answer_of_sole sole hcaller hanswer
    cases hlist
    rcases Nat.lt_or_eq_of_le (hle n hn) with hshort | hfull
    · have hjob : (collections counts : List (Job α))[i]? = some (.collect (some n)) := by
        have hlt := (List.getElem?_eq_some_iff.mp hn).1
        rw [collections, List.getElem?_append_left (by rwa [List.length_map]), List.getElem?_map,
          hn]
        rfl
      refine .inr ⟨hshort, run.end_met sole hcaller hjob hitems ?_⟩
      rw [Ne, Option.some.injEq]
      omega
    · exact .inl hfull
  · intro n hjob
    by_cases hnil : caller.items = []
    · exact .inl hnil
    · obtain ⟨limit, hlimit, hlt⟩ := told.collecting hnil
      rw [hjob] at hlimit
      cases hlimit
      exact .inr (hlt n rfl)
  · obtain ⟨hlength, closed, hempty⟩ := run.ended_of_sole sole hcaller finished
    have hitems : caller.items = [] := by
      by_contra hne
      obtain ⟨limit, hlimit, -⟩ := told.collecting hne
      simp [finished] at hlimit
    refine ⟨hlength, closed, hempty, ?_⟩
    rw [horder, hitems, hempty, List.append_nil, List.append_nil]
  · have := turns.weight_le run
    omega

/-- Two values of two senders, then none, then what is left; the close comes before the last value
is taken. -/
theorem two_takes_then_the_rest : ∃ history, ∃ c : Crowd Nat, ∃ caller : Caller Nat,
    Run (ofChannel (Channel.ofCapacity 1)) history c ∧ c.callers[0]? = some caller ∧
    programs history = [collections [2, 0], [.send 1, .send 2], [.send 3]] ∧
    (accepted history).map Prod.snd = [1, 3, 2] ∧ caller.lists = [[1, 3], [], [2]] ∧
    Collects [2, 0] history c 0 caller := by
  have opened : Run (ofChannel (Channel.ofCapacity 1 : Channel Nat)) [] _ := .start
  have joined := opened.call (collections [2, 0]) |>.call [.send 1, .send 2] |>.call [.send 3]
  have taken := ((joined.turn 0 0 rfl).turn 1 0 rfl).turn 0 0 rfl
  have full := ((taken.turn 0 0 rfl).turn 2 0 rfl).turn 0 0 rfl
  have waiting := (full.turn 0 0 rfl).turn 0 0 rfl
  have closed := ((waiting.turn 1 0 rfl).close.turn 0 0 rfl).turn 0 0 rfl
  refine ⟨_, _, _, closed, rfl, rfl, by decide, by decide,
    closed.collects_all ⟨rfl, fun k jobs hjobs hk => ?_⟩ rfl⟩
  change [collections [2, 0], [.send 1, .send 2], [.send 3]][k]? = some jobs at hjobs
  match k with
  | 0 => exact absurd rfl hk
  | 1 | 2 =>
    cases hjobs
    simp
  | k + 3 => cases hjobs

end Crowd
end Strand
