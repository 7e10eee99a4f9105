import Conductor.Proofs.Launch.Output

/-!
The size of the output that is told when a program has exited. It counts the characters of the text,
so it is the number of bytes that were read exactly if each byte gave a character of its own.
-/

namespace Conductor

/-! ### Bytes and characters -/

namespace Utf8

variable {lead next : UInt8} {bytes rest : List UInt8} {ranges : List (Nat × Nat)}

/-- A character that starts with one byte can go on with the other. -/
def GoesOn (lead next : UInt8) : Prop :=
  ∃ low high more, tailRanges? lead.toNat = some ((low, high) :: more) ∧
    low ≤ next.toNat ∧ next.toNat ≤ high

/-- No byte goes on with what the byte before it has started. -/
def IsApart (bytes : List UInt8) : Prop := bytes.IsChain fun lead next => ¬ GoesOn lead next

theorem fitting_pos_iff :
    0 < fitting ranges rest ↔
      ∃ low high more next later, ranges = (low, high) :: more ∧ rest = next :: later ∧
        low ≤ next.toNat ∧ next.toNat ≤ high := by
  constructor
  · intro hpos
    unfold fitting at hpos
    split at hpos
    · next low high more next later =>
        split at hpos
        · next hfit => exact ⟨low, high, more, next, later, rfl, rfl, hfit⟩
        · exact absurd hpos (Nat.lt_irrefl 0)
    · exact absurd hpos (Nat.lt_irrefl 0)
  · rintro ⟨low, high, more, next, later, rfl, rfl, hfit⟩
    rw [fitting, if_pos hfit]
    exact Nat.succ_pos _

/-- A first byte is apart from the next one if it starts no character with more bytes, or if none of
these bytes is there. -/
theorem isApart_cons (hranges : tailRanges? lead.toNat = some ranges) :
    IsApart (lead :: rest) ↔ fitting ranges rest = 0 ∧ IsApart rest := by
  cases rest with
  | nil =>
      have hnone : fitting ranges [] = 0 := by simp [fitting]
      simp [IsApart, hnone]
  | cons next later =>
      have hgoes : GoesOn lead next ↔ 0 < fitting ranges (next :: later) := by
        rw [fitting_pos_iff, GoesOn, hranges]
        simp
      rw [IsApart, List.isChain_cons_cons, hgoes, Nat.not_lt, Nat.le_zero]
      rfl

theorem isApart_cons_of_none (hnone : tailRanges? lead.toNat = none) :
    IsApart (lead :: rest) ↔ IsApart rest := by
  cases rest with
  | nil => simp [IsApart]
  | cons next later => simp [IsApart, GoesOn, hnone]

/-- A character takes the bytes that fit along with its first one, so it adds one to the number of
characters, and to the number of bytes one or more. -/
theorem isApart_step {count : ℕ} (hranges : tailRanges? lead.toNat = some ranges)
    (hle : count ≤ (rest.drop (fitting ranges rest)).length)
    (hiff : count = (rest.drop (fitting ranges rest)).length ↔
      IsApart (rest.drop (fitting ranges rest))) :
    count + 1 ≤ (lead :: rest).length ∧
      (count + 1 = (lead :: rest).length ↔ IsApart (lead :: rest)) := by
  rw [isApart_cons hranges]
  rcases Nat.eq_zero_or_pos (fitting ranges rest) with hnone | hsome
  · rw [hnone, List.drop_zero] at hle hiff
    simpa [hnone, hiff] using hle
  · have hfit := fitting_le_length ranges rest
    rw [List.length_drop] at hle
    simp only [List.length_cons]
    refine ⟨by omega, iff_of_false (by omega) ?_⟩
    exact fun happart => hsome.ne' happart.1

/-- Decoding gives at most one character for a byte, and as many as there are bytes only if no byte
goes on with another. -/
theorem length_decode (bytes : List UInt8) :
    (decode bytes).length ≤ bytes.length ∧
      ((decode bytes).length = bytes.length ↔ IsApart bytes) := by
  fun_induction decode bytes with
  | case1 => simp [IsApart]
  | case2 byte rest hnone ih =>
      rw [isApart_cons_of_none hnone]
      simpa using ih
  | case3 byte rest ranges hranges count hall ih => exact isApart_step hranges ih.1 ih.2
  | case4 byte rest ranges hranges count hpart ih => exact isApart_step hranges ih.1 ih.2

end Utf8

/-! ### The last event of a launch -/

variable {w w' : World} {outcome : Outcome}

/-- The event that tells how a program has exited. -/
def Outcome.event (outcome : Outcome) (program : Value) : LaunchEvent :=
  .exited program outcome.exitCode outcome.stdout.length
    (String.ofList (lastOf 400 outcome.stderr.toList))

namespace Child

variable {child : Child} {pumps : Pumps} {turns : List Turn}

theorem conclude_event (hends : (child.conclude pumps w).Ends w' (.ok outcome)) :
    ∃ earlier, w'.journal = .launch (outcome.event child.order.program) :: earlier := by
  obtain ⟨rfl, hok⟩ := Course.ends_ended.mp hends
  cases hok
  refine ⟨w.journal, ?_⟩
  rw [Outcome.event, String.length_ofList, String.toList_ofList]
  rfl

theorem follow_event (hends : (child.follow pumps turns w).Ends w' (.ok outcome)) :
    ∃ earlier, w'.journal = .launch (outcome.event child.order.program) :: earlier := by
  induction turns generalizing pumps w with
  | nil =>
      obtain ⟨t, message, hstop⟩ := Course.ends_hanging.mp hends
      cases (stopped_stirs hstop).2
  | cons turn rest ih =>
      obtain ⟨-, v, -, ⟨-, hreap⟩ | ⟨-, hfollow⟩⟩ := follow_ok hends
      · obtain ⟨-, u, hconclude⟩ := reap_concludes hreap
        exact conclude_event hconclude
      · exact ih hfollow

end Child

namespace Order

variable {order : Order}

/-- The last thing that is told of a launch with a good end is its outcome. -/
theorem launch_event (hends : (order.launch w).Ends w' (.ok outcome)) :
    ∃ earlier, w'.journal = .launch (outcome.event order.program) :: earlier := by
  rcases launch_cases hends with ⟨reason, -, hfail, -⟩ | ⟨script, -, hgo | ⟨t, message, hstop⟩⟩
  · cases hfail
  · exact Child.follow_event hgo
  · cases (Child.stopped_stirs hstop).2

/-- The size that is told counts the characters of the text, whatever the moments at which the bytes
came and the sizes of the reads. It is never more than the number of bytes, and it is that number
exactly if no byte goes on with the character that the byte before it has started. -/
theorem launch_size_eq_iff (hsize : order.readSize ≠ .nothing)
    (hends : (order.launch w).Ends w' (.ok outcome)) :
    ∃ script event earlier size, w.responses.head? = some (.started script) ∧
      w'.journal = .launch event :: earlier ∧
      ("event", .text "process_exit") ∈ event.fields ∧
      ("stdout_bytes", .int (size : Nat)) ∈ event.fields ∧
      size = (Utf8.decode (script.sent .stdout)).length ∧
      size ≤ (script.sent .stdout).length ∧
      (size = (script.sent .stdout).length ↔ Utf8.IsApart (script.sent .stdout)) := by
  obtain ⟨script, hscript, -, houtput⟩ := launch_output hends
  obtain ⟨earlier, hjournal⟩ := launch_event hends
  have htext : outcome.stdout = String.ofList (Utf8.decode (script.sent .stdout)) := by
    rw [← ReadSize.decode_of_ne_nothing hsize]
    exact (houtput .stdout).1
  have hlength : outcome.stdout.length = (Utf8.decode (script.sent .stdout)).length := by
    rw [htext, String.length_ofList]
  refine ⟨script, outcome.event order.program, earlier, outcome.stdout.length, hscript, hjournal,
    ?_, ?_, hlength, ?_⟩
  · simp [Outcome.event, LaunchEvent.fields]
  · simp [Outcome.event, LaunchEvent.fields]
  · rw [hlength]
    exact Utf8.length_decode _

/-- Two bytes of output are told as one. -/
theorem launch_size_of_splitCharacter :
    bytewise.readSize ≠ .nothing ∧
      ∃ w' event earlier, (bytewise.launch { responses := [.started splitCharacter] }).Ends w'
          (.ok ⟨"é", "", some 0⟩) ∧
        w'.journal = .launch event :: earlier ∧ ("stdout_bytes", .int 1) ∈ event.fields ∧
        (splitCharacter.sent .stdout).length = 2 := by
  have hends := Course.ends_of_finish
    (c := bytewise.launch { responses := [.started splitCharacter] })
    (r := .ok ⟨"é", "", some 0⟩) rfl
  obtain ⟨script, event, earlier, size, hscript, hjournal, -, hfield, hsize, -⟩ :=
    launch_size_eq_iff (by decide) hends
  cases hscript
  have hone : size = 1 := hsize.trans (by decide +kernel)
  rw [hone] at hfield
  exact ⟨by decide, _, event, earlier, hends, hjournal, hfield, by decide⟩

end Order

end Conductor
