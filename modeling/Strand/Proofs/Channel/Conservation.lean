import Strand.Proofs.Channel.History

/-! No value is lost, doubled, made up or overtaken. At every moment of every run the values that
were accepted are the values that were handed out followed by the values that are buffered, and
the three counters of the channel count what the history shows. -/
namespace Strand
open History

/-- The books of a channel that buffers `xs`, kept against a history. -/
structure Books {α : Type} (history : List (Occurrence α)) (c : Channel α) (xs : List α) :
    Prop where
  holds : c.ring.Holds xs
  order : (accepted history).map Prod.snd = (delivered history).map Prod.snd ++ xs
  sent : c.ring.sent = (accepted history).length
  received : c.ring.received = (delivered history).length
  rejected : c.rejected = (rejected history).length

/-- What the callers have been told, kept against a history. -/
structure Accounts {α : Type} (history : List (Occurrence α)) (callers : List (Caller α)) :
    Prop where
  length_eq : (programs history).length = callers.length
  told : ∀ (who : Nat) (caller : Caller α), callers[who]? = some caller →
    ∃ program, (programs history)[who]? = some program ∧ Told program (deedsOf who history) caller
  /-- Nobody acts before joining. -/
  stranger : ∀ who, callers.length ≤ who → deedsOf who history = []

namespace Books
variable {α : Type} {history : List (Occurrence α)} {c : Channel α} {xs : List α}

theorem ofCapacity (capacity : Nat) : Books [] (Channel.ofCapacity capacity : Channel α) [] where
  holds := Ring.holds_ofCapacity (Nat.lt_of_lt_of_le Nat.zero_lt_one (Nat.le_max_right _ _))
  order := rfl
  sent := rfl
  received := rfl
  rejected := rfl

/-- An entry that yields no deed leaves the books alone. -/
lemma append (books : Books history c xs) {more : List (Occurrence α)}
    (hmore : ∀ f : Deed α → Option α, select f more = []) : Books (history ++ more) c xs where
  holds := books.holds
  order := by simpa [accepted, delivered, hmore] using books.order
  sent := by simpa [accepted, hmore] using books.sent
  received := by simpa [delivered, hmore] using books.received
  rejected := by simpa [History.rejected, hmore] using books.rejected

theorem turn {s t : Shared Nat α} {who pick : Nat} {caller caller' : Caller α} {ys : List α}
    {deed : Option (Deed α)} (books : Books history s.channel xs)
    (h : Crowd.Turned s who pick caller xs deed t caller' ys) :
    Books (history ++ entry who deed) t.channel ys where
  holds := h.holds books.holds
  order := by
    have hturn := h.conserves
    have hbefore := books.order
    simp only [accepted, delivered, select_append, List.map_append, map_snd_select_entry]
      at hbefore ⊢
    rw [hbefore, List.append_assoc, hturn, List.append_assoc]
  sent := by
    rw [h.sent_eq, books.sent]
    simp only [accepted, select_append, List.length_append, length_select_entry]
  received := by
    rw [h.received_eq books.holds, books.received]
    simp only [delivered, select_append, List.length_append, length_select_entry]
  rejected := by
    rw [h.rejected_eq, books.rejected]
    simp only [History.rejected, select_append, List.length_append, length_select_entry]

lemma close (books : Books history c xs) : Books history c.close.2 xs where
  holds := books.holds
  order := books.order
  sent := books.sent
  received := books.received
  rejected := books.rejected

end Books

namespace Accounts
variable {α : Type} {history : List (Occurrence α)} {callers : List (Caller α)}

lemma call (accounts : Accounts history callers) (jobs : List (Job α)) :
    Accounts (history ++ [.joined jobs]) (callers ++ [Caller.ofJobs jobs]) where
  length_eq := by simp [programs, ← accounts.length_eq]
  told who caller hcaller := by
    have hdeeds : deedsOf who (history ++ [.joined jobs]) = deedsOf who history := by
      simp [deedsOf]
    have hprograms : programs (history ++ [.joined jobs]) = programs history ++ [jobs] := by
      simp [programs]
    rw [hdeeds, hprograms]
    rcases Nat.lt_or_ge who callers.length with hlt | hge
    · rw [List.getElem?_append_left hlt] at hcaller
      obtain ⟨program, hprogram, told⟩ := accounts.told who caller hcaller
      refine ⟨program, ?_, told⟩
      rw [List.getElem?_append_left (by rw [accounts.length_eq]; exact hlt)]
      exact hprogram
    · -- The newcomer has done nothing yet.
      have hlast : who = callers.length := by
        have := (List.getElem?_eq_some_iff.mp hcaller).1
        simp only [List.length_append, List.length_singleton] at this
        omega
      subst hlast
      rw [List.getElem?_concat_length, Option.some.injEq] at hcaller
      subst hcaller
      refine ⟨jobs, ?_, ?_⟩
      · rw [← accounts.length_eq, List.getElem?_concat_length]
      · rw [accounts.stranger _ le_rfl]
        exact Told.ofJobs jobs
  stranger who hwho := by
    have hdeeds : deedsOf who (history ++ [.joined jobs]) = deedsOf who history := by
      simp [deedsOf]
    rw [List.length_append, List.length_singleton] at hwho
    rw [hdeeds]
    exact accounts.stranger who (by omega)

lemma turn {s t : Shared Nat α} {who pick : Nat} {caller caller' : Caller α} {xs ys : List α}
    {deed : Option (Deed α)} (accounts : Accounts history callers)
    (hcaller : callers[who]? = some caller)
    (h : Crowd.Turned s who pick caller xs deed t caller' ys) :
    Accounts (history ++ entry who deed) (callers.set who caller') where
  length_eq := by simp [accounts.length_eq]
  told k other hother := by
    rw [programs_append, programs_entry, List.append_nil, deedsOf_append]
    by_cases hk : who = k
    · subst hk
      have hlt := (List.getElem?_eq_some_iff.mp hcaller).1
      rw [List.getElem?_set_self hlt, Option.some.injEq] at hother
      subst hother
      obtain ⟨program, hprogram, told⟩ := accounts.told who caller hcaller
      rw [deedsOf_entry_self]
      exact ⟨program, hprogram, told.turn h⟩
    · rw [List.getElem?_set_ne hk] at hother
      rw [deedsOf_entry_ne hk, List.append_nil]
      exact accounts.told k other hother
  stranger k hk := by
    rw [List.length_set] at hk
    have hlt := (List.getElem?_eq_some_iff.mp hcaller).1
    rw [deedsOf_append, deedsOf_entry_ne (by omega), List.append_nil]
    exact accounts.stranger k hk

lemma close (accounts : Accounts history callers) (changed : Bool) :
    Accounts (history ++ [.closed changed]) callers where
  length_eq := by simpa [programs] using accounts.length_eq
  told who caller hcaller := by
    have := accounts.told who caller hcaller
    simpa [programs, deedsOf] using this
  stranger who hwho := by simpa [deedsOf] using accounts.stranger who hwho

end Accounts

namespace Crowd
variable {α : Type} {history : List (Occurrence α)} {c : Crowd α}

theorem Run.books {capacity : Nat} (run : Run (ofChannel (Channel.ofCapacity capacity)) history c) :
    Books history c.shared.channel c.shared.channel.ring.toList := by
  suffices h : ∃ xs, Books history c.shared.channel xs by
    obtain ⟨xs, books⟩ := h
    rw [books.holds.toList_eq]
    exact books
  induction run with
  | start => exact ⟨[], Books.ofCapacity capacity⟩
  | call jobs _ ih =>
    obtain ⟨xs, books⟩ := ih
    exact ⟨xs, books.append fun _ => rfl⟩
  | turn who pick _ step ih =>
    obtain ⟨xs, books⟩ := ih
    obtain ⟨caller, s, caller', ys, -, -, -, hturned, rfl⟩ := turn_cases books.holds step
    exact ⟨ys, books.turn hturned⟩
  | wake _ _ _ ih => exact ih
  | close _ ih =>
    obtain ⟨xs, books⟩ := ih
    exact ⟨xs, (books.append fun _ => rfl).close⟩

/-- A channel keeps its capacity. -/
theorem Run.capacity_eq {capacity : Nat}
    (run : Run (ofChannel (Channel.ofCapacity capacity)) history c) :
    c.shared.channel.capacity = max capacity 1 := by
  induction run with
  | start => exact Array.size_replicate
  | call jobs _ ih => exact ih
  | turn who pick run step ih =>
    obtain ⟨caller, s, caller', ys, -, -, -, hturned, rfl⟩ := turn_cases run.books.holds step
    exact hturned.capacity_eq.trans ih
  | wake _ _ _ ih => exact ih
  | close _ ih => exact ih

theorem Run.accounts {capacity : Nat}
    (run : Run (ofChannel (Channel.ofCapacity capacity)) history c) :
    Accounts history c.callers := by
  induction run with
  | start => exact ⟨rfl, fun _ _ h => by simp [ofChannel] at h, fun _ _ => rfl⟩
  | call jobs _ ih => exact ih.call jobs
  | turn who pick run step ih =>
    obtain ⟨caller, s, caller', ys, hcaller, -, -, hturned, rfl⟩ := turn_cases run.books.holds step
    exact ih.turn hcaller hturned
  | wake _ _ _ ih => exact ih
  | close _ ih => exact ih.close _

/-- What holds of a channel, its callers and their history at every moment. -/
structure Conserved (history : List (Occurrence α)) (c : Crowd α) : Prop where
  /-- The accepted values are those handed out and then those buffered, in the same order. -/
  order : (accepted history).map Prod.snd =
    (delivered history).map Prod.snd ++ c.shared.channel.ring.toList
  /-- What is buffered stands in `len` slots, from the read cursor on and around the end. -/
  buffered : c.shared.channel.ring.toList.length = c.shared.channel.len ∧
    ∀ i < c.shared.channel.len,
      c.shared.channel.ring.slots[(c.shared.channel.ring.read + i) % c.shared.channel.capacity]? =
        some c.shared.channel.ring.toList[i]?
  /-- Every caller has worked off its jobs in order, and its answers tell exactly its deeds. -/
  told : ∀ (who : Nat) (caller : Caller α), c.callers[who]? = some caller →
    ∃ program, (programs history)[who]? = some program ∧ Told program (deedsOf who history) caller
  /-- What has left of a sender's values is what it got accepted first. -/
  sender_prefix : ∀ who,
    (((accepted history).take (delivered history).length).filter fun entry => entry.1 = who).map
        Prod.snd <+:
      (deedsOf who history).filterMap Deed.accepted?
  /-- If a kind of values comes from one sender only, they leave in the order in which this sender
  got them accepted. -/
  sender_order : ∀ (who : Nat) (kind : α → Bool),
    (∀ entry ∈ accepted history, kind entry.2 = true → entry.1 = who) →
    ((deedsOf who history).filterMap Deed.accepted?).filter kind =
      ((delivered history).map Prod.snd).filter kind ++ c.shared.channel.ring.toList.filter kind
  /-- A value no send of which was accepted is neither handed out nor buffered. -/
  only_accepted : ∀ value, (∀ who, (who, value) ∉ accepted history) →
    value ∉ (delivered history).map Prod.snd ∧ value ∉ c.shared.channel.ring.toList
  sent : c.shared.channel.stats.sent = (accepted history).length
  received : c.shared.channel.stats.received = (delivered history).length
  rejected : c.shared.channel.stats.rejected = (rejected history).length

/-- In every run of any callers on a channel of any capacity, at every moment. -/
theorem run_conserves_values {capacity : Nat}
    (run : Run (ofChannel (Channel.ofCapacity capacity)) history c) : Conserved history c := by
  have books := run.books
  refine ⟨books.order, ⟨books.holds.len_eq.symm, ?_⟩, run.accounts.told, ?_, ?_, ?_, books.sent,
    books.received, books.rejected⟩
  · intro i hi
    have hlt : i < c.shared.channel.ring.toList.length := by
      rw [← books.holds.len_eq]
      exact hi
    exact books.holds.slot i (hlt.trans_le books.holds.length_le)
  · intro who
    rw [filterMap_deedsOf]
    exact ((List.take_prefix _ _).filter _).map _
  · intro who kind hkind
    have hselect : ((accepted history).filter fun entry => entry.1 = who).filter
        (kind ∘ Prod.snd) = (accepted history).filter (kind ∘ Prod.snd) := by
      rw [List.filter_filter]
      apply List.filter_congr
      intro entry hentry
      cases hk : kind entry.2 with
      | false => simp [hk]
      | true => simp [hk, hkind entry hentry hk]
    rw [filterMap_deedsOf, List.filter_map, ← accepted, hselect, ← List.filter_map, books.order,
      List.filter_append]
  · intro value hvalue
    have hnot : value ∉ (accepted history).map Prod.snd := by
      intro hmem
      obtain ⟨entry, hentry, rfl⟩ := List.mem_map.mp hmem
      exact hvalue entry.1 hentry
    rw [books.order, List.mem_append, not_or] at hnot
    exact hnot

/-- A sender finds the channel full, and goes on when the receiver has taken its first value;
another comes too late. -/
theorem two_senders_conserved : ∃ c : Crowd Nat,
    Run (ofChannel (Channel.ofCapacity 0))
      [.joined [.send 1, .send 2], .joined [.send 3], .joined [.receive, .receive],
        .did 0 (.sent 1 .accepted), .did 2 (.received (some 1)), .did 0 (.sent 2 .accepted),
        .closed true, .did 1 (.sent 3 (.rejected 3)), .did 2 (.received (some 2))] c ∧
    Conserved
      [.joined [.send 1, .send 2], .joined [.send 3], .joined [.receive, .receive],
        .did 0 (.sent 1 .accepted), .did 2 (.received (some 1)), .did 0 (.sent 2 .accepted),
        .closed true, .did 1 (.sent 3 (.rejected 3)), .did 2 (.received (some 2))] c := by
  have opened : Run (ofChannel (Channel.ofCapacity 0 : Channel Nat)) [] _ := .start
  have joined := opened.call [.send 1, .send 2] |>.call [.send 3] |>.call [.receive, .receive]
  have parked := ((joined.turn 2 0 rfl).turn 0 0 rfl).turn 1 0 rfl |>.turn 0 0 rfl
  have taken := (parked.turn 2 1 rfl).turn 0 0 rfl
  have closed := (taken.close.turn 1 0 rfl).turn 2 0 rfl
  exact ⟨_, closed, run_conserves_values closed⟩

end Crowd
end Strand
