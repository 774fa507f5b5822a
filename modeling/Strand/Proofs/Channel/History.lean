import Strand.Proofs.Channel.Turn

/-! Histories of a crowd. A run takes turns of any callers in any order, lets new callers join,
wakes callers for no reason and closes the channel; its history lists what every critical section
completed, in the order of the lock. The history is no more than the callers themselves are told:
`Told` ties the deeds of each caller to its answers, job by job. -/
namespace Strand

/-- One entry of a history. -/
inductive Occurrence (α : Type)
  | joined (jobs : List (Job α))
  | did (who : Nat) (deed : Deed α)
  /-- A close, and whether it was the one that closed the channel. -/
  | closed (changed : Bool)
  deriving DecidableEq, Repr

namespace History
variable {α : Type}

/-- What the deeds of a history yield, each with the caller whose deed it was. -/
def select {β : Type} (f : Deed α → Option β) (history : List (Occurrence α)) : List (Nat × β) :=
  history.filterMap fun
    | .did who deed => (f deed).map fun value => (who, value)
    | _ => none

/-- The values that sends put into the channel, each with its sender. -/
def accepted (history : List (Occurrence α)) : List (Nat × α) := select Deed.accepted? history

/-- The values that were turned away, each with its sender. -/
def rejected (history : List (Occurrence α)) : List (Nat × α) := select Deed.rejected? history

/-- The values that receives handed out, each with its receiver. -/
def delivered (history : List (Occurrence α)) : List (Nat × α) := select Deed.delivered? history

/-- The jobs of all callers, in the order in which they joined. -/
def programs (history : List (Occurrence α)) : List (List (Job α)) :=
  history.filterMap fun
    | .joined jobs => some jobs
    | _ => none

/-- What one caller did. -/
def deedsOf (who : Nat) (history : List (Occurrence α)) : List (Deed α) :=
  history.filterMap fun
    | .did k deed => if k = who then some deed else none
    | _ => none

/-- The entry that a turn of `who` leaves behind, if it completed anything. -/
def entry (who : Nat) (deed : Option (Deed α)) : List (Occurrence α) := deed.toList.map (.did who)

variable {β : Type} (f : Deed α → Option β) (h k : List (Occurrence α)) (who : Nat)

@[simp] lemma select_append : select f (h ++ k) = select f h ++ select f k := List.filterMap_append

@[simp] lemma programs_append : programs (h ++ k) = programs h ++ programs k :=
  List.filterMap_append

@[simp] lemma deedsOf_append :
    deedsOf who (h ++ k) = deedsOf who h ++ deedsOf who k := List.filterMap_append

@[simp] lemma select_entry (deed : Option (Deed α)) :
    select f (entry who deed) = (deed.bind f).toList.map fun value => (who, value) := by
  cases deed with
  | none => rfl
  | some deed => cases hf : f deed <;> simp [entry, select, hf]

@[simp] lemma length_select_entry (deed : Option (Deed α)) :
    (select f (entry who deed)).length = (deed.bind f).toList.length := by simp

@[simp] lemma map_snd_select_entry (deed : Option (Deed α)) :
    (select f (entry who deed)).map Prod.snd = (deed.bind f).toList := by simp

@[simp] lemma programs_entry (deed : Option (Deed α)) : programs (entry who deed) = [] := by
  cases deed <;> rfl

@[simp] lemma deedsOf_entry_self (deed : Option (Deed α)) :
    deedsOf who (entry who deed) = deed.toList := by
  cases deed <;> simp [entry, deedsOf]

lemma deedsOf_entry_ne {who k : Nat} (hne : k ≠ who) (deed : Option (Deed α)) :
    deedsOf who (entry k deed) = [] := by
  cases deed <;> simp [entry, deedsOf, hne]

variable {h who} in
lemma mem_of_deedsOf {deed : Deed α} (hmem : deed ∈ deedsOf who h) : .did who deed ∈ h := by
  obtain ⟨occurrence, hoccurrence, hdeed⟩ := List.mem_filterMap.mp hmem
  cases occurrence with
  | did k other =>
    dsimp only at hdeed
    split at hdeed
    next hk =>
      cases hdeed
      rw [← hk]
      exact hoccurrence
    · cases hdeed
  | joined | closed => cases hdeed

/-- The deeds of one caller yield what is tagged with that caller, in the same order. -/
theorem filterMap_deedsOf :
    (deedsOf who h).filterMap f =
      ((select f h).filter fun entry => entry.1 = who).map Prod.snd := by
  induction h with
  | nil => rfl
  | cons occurrence h ih =>
    cases occurrence with
    | joined jobs => exact ih
    | closed changed => exact ih
    | did k deed =>
      rw [← List.singleton_append, deedsOf_append, select_append, List.filterMap_append, ih,
        List.filter_append, List.map_append]
      congr 1
      by_cases hk : k = who <;> cases hf : f deed <;> simp [deedsOf, select, hk, hf]

/-- What is tagged with a caller is what its deeds yield. -/
lemma mem_select {value : β} :
    (who, value) ∈ select f h ↔ value ∈ (deedsOf who h).filterMap f := by
  simp [filterMap_deedsOf]

end History

open History

/-- What the answer to a job tells of the critical sections that it took. A collection that stopped
short of its limit met the end of the channel. -/
def Job.report {α : Type} : Job α → Answer α → List (Deed α)
  | .send value, .sent result => [.sent value result]
  | .receive, .received value => [.received value]
  | .collect limit, .collected items =>
    items.map (fun value => .received (some value)) ++
      if limit = some items.length then [] else [.received none]
  | _, _ => []

/-- What a caller has been told so far: the answers to its finished jobs, and what the collection in
hand has received. -/
def Caller.account {α : Type} (program : List (Job α)) (c : Caller α) : List (Deed α) :=
  (List.zipWith Job.report program c.answers).flatten ++
    c.items.map fun value => .received (some value)

/-- A caller that started with a program has been told of these deeds and of no others. -/
structure Told {α : Type} (program : List (Job α)) (deeds : List (Deed α)) (c : Caller α) :
    Prop where
  jobs_eq : c.jobs = program.drop c.answers.length
  deeds_eq : deeds = c.account program
  /-- Only a collection that has not reached its limit holds values back. -/
  collecting : c.items ≠ [] → ∃ limit, c.jobs.head? = some (.collect limit) ∧
    ∀ n, limit = some n → c.items.length < n

namespace Told
variable {α : Type} {program : List (Job α)} {deeds : List (Deed α)} {c : Caller α} {job : Job α}

lemma ofJobs (jobs : List (Job α)) : Told jobs [] (Caller.ofJobs jobs) where
  jobs_eq := rfl
  deeds_eq := by simp [Caller.account, Caller.ofJobs]
  collecting h := absurd rfl h

lemma zipWith_report_snoc {answers : List (Answer α)} {job : Job α}
    (h : (program.drop answers.length).head? = some job) (a : Answer α) :
    List.zipWith Job.report program (answers ++ [a]) =
      List.zipWith Job.report program answers ++ [job.report a] := by
  induction answers generalizing program with
  | nil =>
    cases program with
    | nil => simp at h
    | cons first rest =>
      have hf : first = job := by simpa using h
      subst hf
      simp
  | cons b answers ih =>
    cases program with
    | nil => simp at h
    | cons first rest =>
      simp only [List.cons_append, List.zipWith_cons_cons]
      rw [ih (by simpa using h)]

/-- Finishing the job in hand tells, on top of what was told before, the rest of its report. -/
theorem answer (told : Told program deeds c) (hjob : c.jobs.head? = some job) {a : Answer α}
    {more : List (Deed α)}
    (hreport : job.report a = (c.items.map fun value => .received (some value)) ++ more) :
    Told program (deeds ++ more) (c.answer a) where
  jobs_eq := by
    simp only [Caller.answer, told.jobs_eq, List.tail_drop, List.length_append,
      List.length_singleton]
  deeds_eq := by
    have hhead : (program.drop c.answers.length).head? = some job := by
      rw [← told.jobs_eq]
      exact hjob
    rw [told.deeds_eq]
    simp only [Caller.account, Caller.answer, zipWith_report_snoc hhead, hreport,
      List.flatten_append, List.flatten_singleton, List.map_nil, List.append_nil, List.append_assoc]
  collecting h := absurd rfl h

lemma items_eq_nil (told : Told program deeds c) (hjob : c.jobs.head? = some job)
    (h : ∀ limit, job ≠ .collect limit) : c.items = [] := by
  by_contra hne
  obtain ⟨limit, hlimit, -⟩ := told.collecting hne
  rw [hjob] at hlimit
  exact h limit (Option.some.inj hlimit)

/-- While a collection goes on, its limit lies ahead. -/
lemma length_lt_limit (told : Told program deeds c) {limit : Option Nat}
    (hjob : c.jobs.head? = some (.collect limit)) (hzero : limit ≠ some 0) {n : Nat}
    (hn : limit = some n) : c.items.length < n := by
  by_cases hnil : c.items = []
  · rw [hnil]
    exact Nat.pos_of_ne_zero fun h0 => hzero (by rw [hn, h0])
  · obtain ⟨limit', hjob', hlt⟩ := told.collecting hnil
    rw [hjob] at hjob'
    cases hjob'
    exact hlt n hn

/-- A receive that comes to an outcome tells that outcome, whichever job it belongs to. -/
theorem receive (told : Told program deeds c) (job : c.isReceiving = true) (outcome : Option α) :
    Told program (deeds ++ [.received outcome]) (c.receive outcome) := by
  rcases c.isReceiving_cases job with hjob | ⟨limit, hjob, hzero⟩
  · have hitems := told.items_eq_nil hjob (by simp)
    have hreceive : c.receive outcome = c.answer (.received outcome) := by
      simp [Caller.receive, hjob]
    rw [hreceive]
    exact told.answer hjob (by simp [Job.report, hitems])
  · have hlt : ∀ n, limit = some n → c.items.length < n := fun n hn =>
      told.length_lt_limit hjob hzero hn
    cases outcome with
    | none =>
      have hreceive : c.receive none = c.answer (.collected c.items) := by
        simp [Caller.receive, hjob]
      have hshort : limit ≠ some c.items.length := fun h => Nat.lt_irrefl _ (hlt _ h)
      rw [hreceive]
      exact told.answer hjob (by simp [Job.report, hshort])
    | some x =>
      have hreceive : c.receive (some x) = c.gather limit x := by simp [Caller.receive, hjob]
      rw [hreceive, Caller.gather]
      split
      next hfull => exact told.answer hjob (by simp [Job.report, hfull])
      next hmore =>
        refine ⟨told.jobs_eq, ?_, fun _ => ⟨limit, hjob, fun n hn => ?_⟩⟩
        · rw [told.deeds_eq]
          simp [Caller.account]
        · have := hlt n hn
          rw [hn, Option.some.injEq] at hmore
          simp only [List.length_append, List.length_singleton] at hmore ⊢
          omega

theorem turn {s t : Shared Nat α} {who pick : Nat} {xs ys : List α} {deed : Option (Deed α)}
    {c' : Caller α} (told : Told program deeds c)
    (h : Crowd.Turned s who pick c xs deed t c' ys) : Told program (deeds ++ deed.toList) c' := by
  cases h with
  | waitsForRoom => simpa using told
  | waitsForValue => simpa using told
  | turnedAway job =>
    have hjob := Caller.head_of_offer job
    exact told.answer hjob (by simp [Job.report, told.items_eq_nil hjob (by simp)])
  | sends job =>
    have hjob := Caller.head_of_offer job
    exact told.answer hjob (by simp [Job.report, told.items_eq_nil hjob (by simp)])
  | findsEnd job => exact told.receive job none
  | takes job => exact told.receive job _
  | skips hjob =>
    have hitems : c.items = [] := by
      by_contra hne
      obtain ⟨limit, hlimit, hlt⟩ := told.collecting hne
      rw [hjob] at hlimit
      cases hlimit
      exact Nat.not_lt_zero _ (hlt 0 rfl)
    exact told.answer hjob (by simp [Job.report, hitems])

end Told

namespace Crowd
variable {α : Type}

/-- The runs of a crowd with their histories: callers join, take turns and park in any order, any
parked caller may be the one that is woken, some may even be woken for no reason, and the channel
may be closed at any time. -/
inductive Run (start : Crowd α) : List (Occurrence α) → Crowd α → Prop
  | start : Run start [] start
  | call {h c} (jobs : List (Job α)) (run : Run start h c) :
      Run start (h ++ [.joined jobs]) (c.call jobs)
  | turn {h c d events} (who pick : Nat) (run : Run start h c)
      (step : c.turn who pick = some (d, events)) :
      Run start (h ++ entry who (c.deed? who)) d
  | wake {h c senders receivers} (run : Run start h c)
      (fewer_senders : senders.Sublist c.shared.senders)
      (fewer_receivers : receivers.Sublist c.shared.receivers) :
      Run start h { c with shared := { c.shared with senders, receivers } }
  | close {h c} (run : Run start h c) : Run start (h ++ [.closed c.close.1]) c.close.2.1

end Crowd
end Strand
