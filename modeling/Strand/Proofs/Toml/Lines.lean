import Mathlib.Data.List.Nodup
import Strand.Proofs.Lists
import Strand.Proofs.Toml.Written
import Strand.Toml.Document

/-! How a document without tables can be written: assignments on lines of their own, with empty
lines and comments between them, ended in either way. The reader returns the entries in the order of
their lines, whatever else is in the document. -/
namespace Strand.Toml
variable {p : Char → Bool} {trail tail more text w rest cs : Chars} {es : Entries} {name : String}
  {value : Value} {d d' : Draft} {n : Nat}

/-- What may stand on a line apart from an assignment, and behind it: blanks and a comment. -/
inductive TrailWritten : Chars → Prop
  | blanks {w : Chars} (blanks : ∀ c ∈ w, isBlank c = true) : TrailWritten w
  | comment {w text : Chars} (blanks : ∀ c ∈ w, isBlank c = true)
      (fits : ∀ c ∈ text, isCommentChar c = true) : TrailWritten (w ++ '#' :: text)

/-- The end of a line or of the document, with what is left behind it. -/
inductive LineEnd : Chars → Chars → Prop
  | document : LineEnd [] []
  | feed (more : Chars) : LineEnd ('\n' :: more) more
  | returnFeed (more : Chars) : LineEnd ('\r' :: '\n' :: more) more

/-- The documents in which some entries are assigned one after the other. -/
inductive Written : Entries → Chars → Prop
  | nil : Written [] []
  | idle {es : Entries} {trail tail more : Chars} (behind : TrailWritten trail)
      (lineEnd : LineEnd tail more) (rest : Written es more) : Written es (trail ++ tail)
  | line {es : Entries} {name : String} {value : Value} {indent w trail tail more : Chars}
      (indented : ∀ c ∈ indent, isBlank c = true) (assigns : AssignmentWritten name value w)
      (behind : TrailWritten trail) (lineEnd : LineEnd tail more) (rest : Written es more) :
      Written ((name, value) :: es) (indent ++ (w ++ (trail ++ tail)))

/-- Entries that have values of the two kinds can be written, under whatever keys. -/
lemma exists_written (h : ∀ name value, (name, value) ∈ es → ∃ w, ValueWritten value w) :
    ∃ text, Written es text := by
  induction es with
  | nil => exact ⟨_, .nil⟩
  | cons entry es ih =>
    obtain ⟨name, value⟩ := entry
    obtain ⟨v, key⟩ := exists_textWritten name.toList
    obtain ⟨w, written⟩ := h name value List.mem_cons_self
    obtain ⟨more, rest⟩ := ih fun name value hmem => h name value (List.mem_cons_of_mem _ hmem)
    have none : ∀ c ∈ ([] : Chars), isBlank c = true := by simp
    exact ⟨_, .line none (.equals (.basic key) written none none) (.blanks none) (.feed more) rest⟩

namespace LineEnd

lemma stops (lineEnd : LineEnd tail more) (hfeed : p '\n' = false) (hreturn : p '\r' = false) :
    Stops p tail := by
  cases lineEnd with
  | document => exact stops_nil
  | feed => exact stops_cons.mpr hfeed
  | returnFeed => exact stops_cons.mpr hreturn

lemma endOfLine? (lineEnd : LineEnd tail more) : Toml.endOfLine? tail = some more := by
  cases lineEnd <;> rfl

lemma length_le (lineEnd : LineEnd tail more) : more.length ≤ tail.length := by
  cases lineEnd with
  | document => exact Nat.le_refl _
  | feed => simp
  | returnFeed =>
    simp only [List.length_cons]
    omega

end LineEnd

namespace TrailWritten

/-- Behind the comment, if there is one, the line is at its end. -/
lemma restOfLine? (behind : TrailWritten trail) (lineEnd : LineEnd tail more) :
    Toml.restOfLine? (trail ++ tail) = some more := by
  rw [Toml.restOfLine?]
  cases behind with
  | blanks blanks =>
    rw [skipBlanks_append blanks (lineEnd.stops rfl rfl), ← lineEnd.endOfLine?]
    cases lineEnd <;> rfl
  | comment blanks fits =>
    rw [List.append_assoc, List.cons_append, skipBlanks_append blanks (stops_cons.mpr rfl),
      skipComment, dropWhile_append fits (lineEnd.stops rfl rfl), lineEnd.endOfLine?]

lemma isEnd (behind : TrailWritten trail) (lineEnd : LineEnd tail more) :
    ∀ c ∈ (trail ++ tail).head?, Toml.isEnd c = true := by
  have hblanks : ∀ {w rest : Chars}, (∀ c ∈ w, isBlank c = true) →
      (∀ c ∈ rest.head?, Toml.isEnd c = true) → ∀ c ∈ (w ++ rest).head?, Toml.isEnd c = true := by
    intro w rest blanks hrest c hc
    cases w with
    | nil => exact hrest c hc
    | cons c' w =>
      obtain rfl : c' = c := Option.some.inj hc
      rcases eq_of_blank (blanks c' List.mem_cons_self) with rfl | rfl <;> rfl
  cases behind with
  | blanks blanks =>
    refine hblanks blanks fun c hc => ?_
    cases lineEnd with
    | document => cases hc
    | feed | returnFeed =>
      cases hc
      rfl
  | comment blanks fits =>
    rw [List.append_assoc]
    refine hblanks blanks fun c hc => ?_
    cases hc
    rfl

end TrailWritten

lemma AssignmentWritten.head (assigns : AssignmentWritten name value w) :
    ∃ c w', w = c :: w' ∧ isKeyStart c = true := by
  obtain ⟨key, -, -, -⟩ := assigns
  obtain ⟨c, w', rfl, start⟩ := key.head
  exact ⟨c, _, rfl, start⟩

lemma line?_assignment (assigns : AssignmentWritten name value w) (behind : TrailWritten trail)
    (lineEnd : LineEnd tail more) (fresh : d.current.lookup name = none) :
    line? d (w ++ (trail ++ tail)) =
      some ({ d with current := d.current ++ [(name, value)] }, more) := by
  have hassigns := assignment?_written assigns (behind.isEnd lineEnd) (nestingLimit - 1)
  obtain ⟨c, w', rfl, start⟩ := assigns.head
  have hne : ∀ x cs, isKeyStart x = false → c :: w' ++ (trail ++ tail) ≠ x :: cs := by
    intro x cs hx heq
    rw [(List.cons.inj heq).1, hx] at start
    cases start
  rw [line?]
  · simp only [hassigns, behind.restOfLine? lineEnd, Draft.assign, Entries.assign, fresh,
      Option.bind_eq_bind, Option.bind_some]
    rfl
  · exact fun _ => hne '[' _ rfl
  · exact fun _ => hne '[' _ rfl
  · exact fun _ => hne '#' _ rfl
  · exact fun _ => hne '\n' _ rfl
  · exact fun _ => hne '\r' _ rfl

lemma lines?_step (hskip : skipBlanks cs = rest) (hne : rest ≠ [])
    (hline : line? d rest = some (d', more)) (n : Nat) :
    lines? (n + 1) d cs = lines? n d' more := by
  rw [lines?, hskip]
  cases rest with
  | nil => exact absurd rfl hne
  | cons c rest => simp only [hline]

/-- A line without an assignment changes nothing. -/
lemma lines?_idle (behind : TrailWritten trail) (lineEnd : LineEnd tail more)
    (hn : (trail ++ tail).length < n) : ∃ m, more.length < m ∧
      lines? n d (trail ++ tail) = lines? m d more := by
  obtain ⟨n, rfl⟩ := Nat.exists_eq_add_one_of_ne_zero (Nat.ne_of_gt (Nat.zero_lt_of_lt hn))
  have hle := lineEnd.length_le
  rw [List.length_append] at hn
  cases behind with
  | blanks blanks =>
    have hskip := skipBlanks_append blanks (lineEnd.stops rfl rfl)
    cases lineEnd with
    | document =>
      refine ⟨n + 1, Nat.zero_lt_succ n, ?_⟩
      rw [lines?, hskip]
      rfl
    | feed =>
      refine ⟨n, ?_, lines?_step hskip (by simp) rfl n⟩
      simp only [List.length_cons] at hn
      omega
    | returnFeed =>
      refine ⟨n, ?_, lines?_step hskip (by simp) rfl n⟩
      simp only [List.length_cons] at hn
      omega
  | @comment w text blanks fits =>
    have hskip : skipBlanks ((w ++ '#' :: text) ++ tail) = '#' :: (text ++ tail) := by
      rw [List.append_assoc]
      exact skipBlanks_append blanks (stops_cons.mpr rfl)
    have hrest : restOfLine? ('#' :: (text ++ tail)) = some more :=
      (TrailWritten.comment (w := []) (by simp) fits).restOfLine? lineEnd
    refine ⟨n, ?_, lines?_step hskip (by simp) ?_ n⟩
    · simp only [List.length_append, List.length_cons] at hn
      omega
    · rw [line?, hrest]
      rfl

/-- A document is read line by line, and each line leaves less to be read. -/
theorem lines?_written (written : Written es text) (hn : text.length < n)
    (nodup : (es.map Prod.fst).Nodup)
    (fresh : ∀ name ∈ es.map Prod.fst, d.current.lookup name = none) :
    lines? n d text = some { d with current := d.current ++ es } := by
  induction written generalizing n d with
  | nil =>
    obtain ⟨n, rfl⟩ := Nat.exists_eq_add_one_of_ne_zero (Nat.ne_of_gt hn)
    rw [List.append_nil]
    rfl
  | idle behind lineEnd _ ih =>
    obtain ⟨m, hm, hlines⟩ := lines?_idle behind lineEnd hn
    rw [hlines]
    exact ih hm nodup fresh
  | @line es name value indent w trail tail more indented assigns behind lineEnd _ ih =>
    obtain ⟨n, rfl⟩ := Nat.exists_eq_add_one_of_ne_zero (Nat.ne_of_gt (Nat.zero_lt_of_lt hn))
    have hle := lineEnd.length_le
    obtain ⟨hfirst, hnodup⟩ := List.nodup_cons.mp nodup
    have hname := fresh name List.mem_cons_self
    obtain ⟨c, w', hw, start⟩ := assigns.head
    have hskip : skipBlanks (indent ++ (w ++ (trail ++ tail))) = w ++ (trail ++ tail) := by
      refine skipBlanks_append indented ?_
      rw [hw]
      refine stops_cons.mpr (Bool.eq_false_iff.mpr fun hblank => ?_)
      rcases eq_of_blank hblank with rfl | rfl <;> cases start
    rw [lines?_step hskip (by simp [hw]) (line?_assignment assigns behind lineEnd hname)]
    have hmore : more.length < n := by
      rw [hw] at hn
      simp only [List.length_append, List.length_cons] at hn
      omega
    have hfresh : ∀ other ∈ es.map Prod.fst,
        (d.current ++ [(name, value)]).lookup other = none := by
      intro other hother
      have hne : other ≠ name := by
        rintro rfl
        exact hfirst hother
      rw [List.lookup_append, fresh other (List.mem_cons_of_mem _ hother), lookup_cons_ne hne]
      rfl
    rw [ih hmore hnodup hfresh, List.append_assoc]
    rfl

/-- No document that is written like this begins with a byte order mark. -/
lemma dropByteOrderMark_written (written : Written es text) : dropByteOrderMark text = text := by
  have hstop : Stops (fun c => c.toNat == 0xfeff) text := by
    have hblanks : ∀ {w : Chars}, (∀ c ∈ w, isBlank c = true) →
        ∀ c ∈ w, (c.toNat == 0xfeff) = false := by
      intro w blanks c hc
      rcases eq_of_blank (blanks c hc) with rfl | rfl <;> rfl
    cases written with
    | nil => exact stops_nil
    | idle behind lineEnd _ =>
      cases behind with
      | blanks blanks => exact stops_append (hblanks blanks) (lineEnd.stops rfl rfl)
      | comment blanks fits =>
        rw [List.append_assoc]
        exact stops_append (hblanks blanks) (stops_cons.mpr rfl)
    | line indented assigns _ _ _ =>
      refine stops_append (hblanks indented) ?_
      obtain ⟨c, w', rfl, start⟩ := assigns.head
      refine stops_cons.mpr (Bool.eq_false_iff.mpr fun hmark => ?_)
      obtain rfl : c = Char.ofNat 0xfeff := Char.toNat_inj.mp (beq_iff_eq.mp hmark)
      cases start
  cases text with
  | nil => rfl
  | cons c text =>
    have hc := stops_cons.mp hstop
    rw [dropByteOrderMark, if_neg (by simpa using hc)]

/-- What was written is read back: the entries of a document in the order of their lines. -/
theorem read?_written {document : String} (written : Written es document.toList)
    (nodup : (es.map Prod.fst).Nodup) : read? document = some es := by
  have hlines := lines?_written (d := .empty) written (Nat.lt_succ_self _) nodup fun _ _ => rfl
  simp only [read?, dropByteOrderMark_written written, hlines, Option.bind_eq_bind,
    Option.bind_some]
  rfl

end Strand.Toml
