import Conductor.Proofs.Activity
import Conductor.Proofs.Text.Utf8
import Mathlib.Data.List.Pairwise
import Mathlib.Data.List.Sort

/-!
What a launched program prints and what its caller gets to see of it. A script may deliver the bytes
of a pipe in any portions and at any moments, together with those of the other pipe, and the readers
may cut them anywhere; the text depends on the bytes alone.
-/

namespace Conductor

open World

/-! ### The bytes of a pipe -/

/-- All the bytes of a pipe in the order of their moments; those of one moment stay in the order in
which they are given. -/
def Burst.stream (bursts : List Burst) : List UInt8 :=
  (bursts.insertionSort fun a b => a.time ≤ b.time).flatMap (·.bytes)

namespace Script

def pipe (script : Script) : Channel → Option (List Burst)
  | .stdout => script.stdout
  | .stderr => script.stderr

/-- What the program writes to a pipe in the end. -/
def sent (script : Script) (channel : Channel) : List UInt8 :=
  Burst.stream ((script.pipe channel).getD [])

/-- The program exits of its own accord, and callers see this exit code. -/
def ExitsWith (script : Script) (code : Option Int) : Prop :=
  script.exit.isSome = true ∧ code = visibleExitCode (some script.exitCode)

theorem mem_insertTime {t u : Time} {times : List Time} :
    u ∈ insertTime t times ↔ u = t ∨ u ∈ times := by
  fun_induction insertTime t times with
  | case1 => simp
  | case2 v rest hlt => simp
  | case3 rest hlt => simp
  | case4 v rest hlt hne ih =>
      rw [List.mem_cons, ih, List.mem_cons]
      tauto

theorem insertTime_ascending {t : Time} {times : List Time} (htimes : times.Pairwise (· < ·)) :
    (insertTime t times).Pairwise (· < ·) := by
  fun_induction insertTime t times with
  | case1 => simp
  | case2 v rest hlt =>
      refine List.pairwise_cons.mpr ⟨?_, htimes⟩
      intro u hu
      rcases List.mem_cons.mp hu with rfl | hu
      · exact hlt
      · exact Nat.lt_trans hlt ((List.pairwise_cons.mp htimes).1 u hu)
  | case3 rest hlt => exact htimes
  | case4 v rest hlt hne ih =>
      obtain ⟨hfirst, hrest⟩ := List.pairwise_cons.mp htimes
      refine List.pairwise_cons.mpr ⟨?_, ih hrest⟩
      intro u hu
      rcases mem_insertTime.mp hu with rfl | hu
      · exact Nat.lt_of_le_of_ne (Nat.le_of_not_lt hlt) (Ne.symm hne)
      · exact hfirst u hu

private theorem insertAll_spec (moments times : List Time) (htimes : times.Pairwise (· < ·)) :
    (moments.foldl (fun times t => insertTime t times) times).Pairwise (· < ·) ∧
      ∀ t, t ∈ moments ∨ t ∈ times →
        t ∈ moments.foldl (fun times t => insertTime t times) times := by
  induction moments generalizing times with
  | nil => simpa using htimes
  | cons m rest ih =>
      obtain ⟨hascending, hmem⟩ := ih _ (insertTime_ascending (t := m) htimes)
      refine ⟨hascending, ?_⟩
      intro t ht
      apply hmem
      rw [mem_insertTime]
      simp only [List.mem_cons] at ht
      tauto

theorem outputTimes_ascending (script : Script) : script.outputTimes.Pairwise (· < ·) :=
  (insertAll_spec _ [0] (by simp)).1

theorem mem_outputTimes {script : Script} {channel : Channel} {burst : Burst}
    (hburst : burst ∈ (script.pipe channel).getD []) : burst.time ∈ script.outputTimes := by
  refine (insertAll_spec _ [0] (by simp)).2 burst.time (Or.inl ?_)
  apply List.mem_map_of_mem
  cases channel with
  | stdout => exact List.mem_append_left _ hburst
  | stderr => exact List.mem_append_right _ hburst

/-- The moments at which the readers have a turn. -/
def times (script : Script) : List Time :=
  match script.exitTime? with
  | some t => insertTime t script.outputTimes
  | none => script.outputTimes

theorem times_ascending (script : Script) : script.times.Pairwise (· < ·) := by
  unfold times
  split
  · exact insertTime_ascending script.outputTimes_ascending
  · exact script.outputTimes_ascending

theorem mem_times {script : Script} {t : Time} (ht : t ∈ script.outputTimes) :
    t ∈ script.times := by
  unfold times
  split
  · exact mem_insertTime.mpr (Or.inr ht)
  · exact ht

theorem le_exitTime {script : Script} {exit t : Time} (hexit : script.exitTime? = some exit)
    (ht : t ∈ script.times) : t ≤ exit := by
  have hmem : t = exit ∨ t ∈ script.outputTimes := by
    rw [times, hexit] at ht
    exact mem_insertTime.mp ht
  rcases hmem with rfl | ht
  · exact Nat.le_refl _
  obtain ⟨due, -, rfl⟩ := Option.map_eq_some_iff.mp hexit
  have hne : script.outputTimes ≠ [] := List.ne_nil_of_mem ht
  have hascending : script.outputTimes.Pairwise (· ≤ ·) :=
    script.outputTimes_ascending.imp Nat.le_of_lt
  have hlast : t ≤ script.outputTimes.getLast hne := hascending.rel_getLast ht
  rw [List.getLast?_eq_some_getLast hne]
  exact Nat.le_trans hlast (Nat.le_max_right _ _)

end Script

namespace Burst

/-- What belongs to each of some moments, moment by moment. -/
def groups (times : List Time) (bursts : List Burst) : List Burst :=
  times.flatMap fun t => bursts.filter fun burst => burst.time == t

theorem time_of_mem_groups {times : List Time} {bursts : List Burst} {burst : Burst}
    (hburst : burst ∈ groups times bursts) : burst.time ∈ times := by
  obtain ⟨t, ht, hmem⟩ := List.mem_flatMap.mp hburst
  have htime : burst.time = t := by simpa using (List.mem_filter.mp hmem).2
  rwa [htime]

theorem groups_cons_of_notMem {times : List Time} {burst : Burst} (hnot : burst.time ∉ times)
    (rest : List Burst) : groups times (burst :: rest) = groups times rest := by
  unfold groups
  refine List.flatMap_congr fun t ht => ?_
  have hne : burst.time ≠ t := fun heq => hnot (heq ▸ ht)
  simp [hne]

/-- A burst comes before all others of its moment if it stands before them. -/
theorem groups_cons {times : List Time} (htimes : times.Pairwise (· < ·)) {burst : Burst}
    (hburst : burst.time ∈ times) (rest : List Burst) :
    groups times (burst :: rest) =
      (groups times rest).orderedInsert (fun a b => a.time ≤ b.time) burst := by
  induction times with
  | nil => simp at hburst
  | cons t later ih =>
      obtain ⟨hfirst, hlater⟩ := List.pairwise_cons.mp htimes
      have hsplit : ∀ bursts : List Burst, groups (t :: later) bursts =
          (bursts.filter fun b => b.time == t) ++ groups later bursts := fun _ => List.flatMap_cons
      by_cases hnow : burst.time = t
      · have hnot : burst.time ∉ later := fun hin => Nat.lt_irrefl _ (hnow ▸ hfirst _ hin)
        have hle : ∀ b ∈ groups (t :: later) rest, burst.time ≤ b.time := by
          intro b hb
          rcases List.mem_cons.mp (time_of_mem_groups hb) with heq | hin
          · rw [heq, hnow]
          · rw [hnow]
            exact Nat.le_of_lt (hfirst _ hin)
        have hfront : groups (t :: later) (burst :: rest) = burst :: groups (t :: later) rest := by
          rw [hsplit, hsplit, groups_cons_of_notMem hnot]
          simp [hnow]
        rw [hfront]
        cases hrest : groups (t :: later) rest with
        | nil => rfl
        | cons b more =>
            have hb : burst.time ≤ b.time := hle b (by simp [hrest])
            simp [hb]
      · have hin : burst.time ∈ later := by simpa [hnow] using hburst
        have hskip : ∀ b ∈ rest.filter fun b => b.time == t, ¬burst.time ≤ b.time := by
          intro b hb
          have hb : b.time = t := by simpa using (List.mem_filter.mp hb).2
          rw [hb]
          exact Nat.not_le_of_lt (hfirst _ hin)
        rw [hsplit, hsplit, ih hlater hin, List.orderedInsert_eq_take_drop,
          List.orderedInsert_eq_take_drop, List.takeWhile_append_of_pos (by simpa using hskip),
          List.dropWhile_append_of_pos (by simpa using hskip)]
        simp [hnow]

/-- Going through ascending moments is sorting. -/
theorem groups_eq_insertionSort {times : List Time} (htimes : times.Pairwise (· < ·))
    (bursts : List Burst) (hall : ∀ burst ∈ bursts, burst.time ∈ times) :
    groups times bursts = bursts.insertionSort fun a b => a.time ≤ b.time := by
  induction bursts with
  | nil => simp [groups]
  | cons burst rest ih =>
      rw [List.insertionSort_cons, ← ih fun b hb => hall b (List.mem_cons_of_mem _ hb)]
      exact groups_cons htimes (hall burst List.mem_cons_self) rest

end Burst

/-- What a turn offers of a pipe. -/
def Turn.bytes (turn : Turn) : Channel → List UInt8
  | .stdout => turn.stdout
  | .stderr => turn.stderr

namespace Script

/-- The turn of the readers at a moment. -/
def turnAt (script : Script) (t : Time) : Turn where
  time := t
  stdout := bytesAt t script.stdout
  stderr := bytesAt t script.stderr
  isLast := script.exitTime? == some t

theorem turns_eq (script : Script) : script.turns = script.times.map script.turnAt := rfl

/-- The turns together offer all the bytes of a pipe, in order. -/
theorem turns_bytes (script : Script) (channel : Channel) :
    script.turns.flatMap (·.bytes channel) = script.sent channel := by
  have hturn : ∀ t, (script.turnAt t).bytes channel = bytesAt t (script.pipe channel) := by
    intro t
    cases channel <;> rfl
  rw [turns_eq, List.flatMap_map, sent, Burst.stream,
    ← Burst.groups_eq_insertionSort script.times_ascending _ fun _ hburst =>
      mem_times (mem_outputTimes hburst),
    Burst.groups, List.flatMap_assoc]
  exact List.flatMap_congr fun t _ => hturn t

theorem turns_isLast (script : Script) :
    script.turns.Pairwise fun turn _ => turn.isLast = false := by
  rw [turns_eq, List.pairwise_map]
  refine script.times_ascending.imp_of_mem ?_
  intro t u ht hu hlt
  rw [turnAt, beq_eq_false_iff_ne]
  intro hexit
  exact Nat.lt_irrefl _ (Nat.lt_of_lt_of_le hlt (le_exitTime hexit hu))

end Script

/-! ### The reader of a pipe -/

/-- What reads of this size make of the bytes of a pipe: a read of nothing passes for its end. -/
def ReadSize.decode : ReadSize → List UInt8 → List Char
  | .nothing, _ => []
  | _, bytes => Utf8.decode bytes

theorem ReadSize.decode_of_ne_nothing {size : ReadSize} (hsize : size ≠ .nothing)
    (bytes : List UInt8) : size.decode bytes = Utf8.decode bytes := by
  cases size with
  | nothing => exact absurd rfl hsize
  | upTo n => rfl
  | toEnd => rfl

namespace Pump

theorem pieces_flatten (n room : Nat) (bytes : List UInt8) :
    (pieces n room bytes).flatten = bytes := by
  fun_induction pieces n room bytes with
  | case1 => rfl
  | case2 b rest ih => simp [ih]
  | case3 b rest room hnone ih => simpa [hnone] using ih
  | case4 b rest room piece more hpieces ih =>
      rw [hpieces] at ih
      simpa using ih

/-- However the bytes are cut, the reader is fed with all of them. -/
theorem readPieces_eq_feed (state : Utf8.State) (pieces : List (List UInt8)) :
    ((readPieces state pieces).1, (readPieces state pieces).2.flatten) =
      Utf8.feed state pieces.flatten := by
  induction pieces generalizing state with
  | nil => rfl
  | cons piece rest ih =>
      rw [List.flatten_cons, Utf8.feed_append, ← ih]
      simp only [readPieces]
      split
      · next hempty => rw [List.isEmpty_iff.mp hempty, List.nil_append]
      · rw [List.flatten_cons]

theorem readPieces_solid (state : Utf8.State) (pieces : List (List UInt8)) :
    ∀ chunk ∈ (readPieces state pieces).2, chunk ≠ [] := by
  induction pieces generalizing state with
  | nil => simp [readPieces]
  | cons piece rest ih =>
      simp only [readPieces]
      split
      · exact ih _
      · next hempty =>
          intro chunk hchunk
          rcases List.mem_cons.mp hchunk with rfl | hchunk
          · exact fun hnil => hempty (List.isEmpty_iff.mpr hnil)
          · exact ih _ chunk hchunk

theorem closing_flatten (state : Utf8.State) :
    (turn.closing true state).2.flatten = Utf8.finish state := by
  unfold turn.closing
  cases h : (Utf8.finish state).isEmpty with
  | true => simp [List.isEmpty_iff.mp h]
  | false => simp [h]

theorem closing_solid (atEnd : Bool) (state : Utf8.State) :
    ∀ chunk ∈ (turn.closing atEnd state).2, chunk ≠ [] := by
  unfold turn.closing
  cases atEnd <;> cases h : (Utf8.finish state).isEmpty <;> simp_all

variable {size : ReadSize} {pump : Pump}

theorem turn_of_closed (hclosed : pump.isOpen = false) (bytes : List UInt8) (atEnd : Bool) :
    pump.turn size bytes atEnd = (pump, []) := by
  simp [turn, hclosed]

theorem turn_text (size : ReadSize) (bytes : List UInt8) (atEnd : Bool) (pump : Pump) :
    (pump.turn size bytes atEnd).1.text =
      pump.text ++ (pump.turn size bytes atEnd).2.flatten := by
  unfold turn
  cases pump.isOpen with
  | false => simp
  | true =>
      cases size with
      | nothing => simp [text]
      | upTo n => simp [text]
      | toEnd => cases atEnd <;> simp [text]

theorem turn_solid (size : ReadSize) (bytes : List UInt8) (atEnd : Bool) (pump : Pump) :
    ∀ chunk ∈ (pump.turn size bytes atEnd).2, chunk ≠ [] := by
  have happend {first second : List (List Char)} (hfirst : ∀ chunk ∈ first, chunk ≠ [])
      (hsecond : ∀ chunk ∈ second, chunk ≠ []) : ∀ chunk ∈ first ++ second, chunk ≠ [] := by
    intro chunk hchunk
    exact (List.mem_append.mp hchunk).elim (hfirst chunk) (hsecond chunk)
  unfold turn
  cases pump.isOpen with
  | false => simp
  | true =>
      cases size with
      | nothing => simp
      | upTo n => exact happend (readPieces_solid _ _) (closing_solid _ _)
      | toEnd =>
          cases atEnd with
          | false => simp
          | true =>
              exact happend (readPieces_solid pump.state [pump.held ++ bytes])
                (closing_solid true _)

/-- The reader of an open pipe has been offered `bytes`: it was fed with all of them but for those
that it holds back. -/
structure Reading (size : ReadSize) (bytes : List UInt8) (pump : Pump) : Prop where
  isOpen : pump.isOpen = true
  fed : ∃ taken, bytes = taken ++ pump.held ∧ Utf8.feed .start taken = (pump.state, pump.text)
  eager : ∀ n, size = .upTo n → pump.held = []
  idle : size = .nothing → pump.text = []

theorem reading_ofPipe (size : ReadSize) : Reading size [] (ofPipe true) :=
  ⟨rfl, ⟨[], rfl, rfl⟩, fun _ _ => rfl, fun _ => rfl⟩

theorem Reading.turn_open {bytes : List UInt8} (h : Reading size bytes pump)
    (hsize : size ≠ .nothing) (more : List UInt8) :
    Reading size (bytes ++ more) (pump.turn size more false).1 := by
  obtain ⟨taken, hbytes, hfed⟩ := h.fed
  cases size with
  | nothing => exact absurd rfl hsize
  | upTo n =>
      have hheld : pump.held = [] := h.eager n rfl
      have hread := readPieces_eq_feed pump.state (pieces n n more)
      rw [pieces_flatten] at hread
      have htext := turn_text (.upTo n) more false pump
      have hturn : pump.turn (.upTo n) more false =
          ({ pump with
              state := (readPieces pump.state (pieces n n more)).1
              chunks := (readPieces pump.state (pieces n n more)).2.reverse ++ pump.chunks },
            (readPieces pump.state (pieces n n more)).2) := by
        simp [turn, turn.closing, h.isOpen]
      rw [hturn] at htext ⊢
      refine ⟨h.isOpen, ⟨taken ++ more, ?_, ?_⟩, fun _ _ => hheld, by simp⟩
      · simp [hbytes, hheld]
      · rw [Utf8.feed_append, hfed, ← hread, htext]
  | toEnd =>
      have hturn : pump.turn .toEnd more false = ({ pump with held := pump.held ++ more }, []) := by
        simp [turn, h.isOpen]
      rw [hturn]
      refine ⟨h.isOpen, ⟨taken, ?_, hfed⟩, by simp, by simp⟩
      rw [hbytes, List.append_assoc]

theorem Reading.turn_nothing {bytes : List UInt8} (h : Reading .nothing bytes pump)
    (more : List UInt8) (atEnd : Bool) :
    (pump.turn .nothing more atEnd).1.isOpen = false ∧
      (pump.turn .nothing more atEnd).1.text = [] := by
  have hturn : pump.turn .nothing more atEnd = ({ pump with isOpen := false }, []) := by
    simp [turn, h.isOpen]
  rw [hturn]
  exact ⟨rfl, h.idle rfl⟩

/-- When the pipe ends, what was read is what decoding in one piece gives. -/
theorem Reading.turn_end {bytes : List UInt8} (h : Reading size bytes pump)
    (hsize : size ≠ .nothing) (more : List UInt8) :
    (pump.turn size more true).1.isOpen = false ∧
      (pump.turn size more true).1.text = Utf8.decode (bytes ++ more) := by
  obtain ⟨taken, hbytes, hfed⟩ := h.fed
  have hdecode {rest : List UInt8} {read : Utf8.State × List Char}
      (hread : read = Utf8.feed pump.state rest) :
      pump.text ++ (read.2 ++ Utf8.finish read.1) = Utf8.decode (taken ++ rest) := by
    rw [Utf8.decode_eq_read, Utf8.read, Utf8.feed_append, hfed, hread, List.append_assoc]
  have htext := turn_text size more true pump
  cases size with
  | nothing => exact absurd rfl hsize
  | upTo n =>
      have hheld : pump.held = [] := h.eager n rfl
      have hread := readPieces_eq_feed pump.state (pieces n n more)
      rw [pieces_flatten] at hread
      refine ⟨by simp [turn, h.isOpen], ?_⟩
      rw [htext, hbytes, hheld, List.append_nil, ← hdecode hread]
      simp [turn, h.isOpen, closing_flatten]
  | toEnd =>
      have hread := readPieces_eq_feed pump.state [pump.held ++ more]
      rw [List.flatten_singleton] at hread
      refine ⟨by simp [turn, h.isOpen], ?_⟩
      rw [htext, hbytes, List.append_assoc, ← hdecode hread]
      simp [turn, h.isOpen, closing_flatten]

/-- The reader, once it has been offered the bytes `left` too, has been offered `total`. -/
def Due (size : ReadSize) (total left : List UInt8) (pump : Pump) : Prop :=
  (∃ bytes, total = bytes ++ left ∧ pump.Reading size bytes) ∨
    (pump.isOpen = false ∧ pump.text = size.decode total)

theorem due_ofPipe (size : ReadSize) {present : Bool} {total : List UInt8}
    (habsent : present = false → total = []) : Due size total total (ofPipe present) := by
  cases present with
  | true => exact Or.inl ⟨[], rfl, reading_ofPipe size⟩
  | false =>
      refine Or.inr ⟨rfl, ?_⟩
      rw [habsent rfl]
      cases size <;> simp [ReadSize.decode, Utf8.decode, ofPipe, text]

theorem Due.turn {total left more : List UInt8} {atEnd : Bool}
    (h : Due size total (more ++ left) pump) (hend : atEnd = true → left = []) :
    Due size total left (pump.turn size more atEnd).1 := by
  rcases h with ⟨bytes, htotal, hreading⟩ | ⟨hclosed, htext⟩
  · by_cases hsize : size = .nothing
    · subst hsize
      exact Or.inr (hreading.turn_nothing more atEnd)
    · cases atEnd with
      | false =>
          refine Or.inl ⟨bytes ++ more, ?_, hreading.turn_open hsize more⟩
          rw [htotal, List.append_assoc]
      | true =>
          have hdecode : size.decode total = Utf8.decode (bytes ++ more) := by
            rw [htotal, hend rfl, List.append_nil, ReadSize.decode_of_ne_nothing hsize]
          refine Or.inr ?_
          rw [hdecode]
          exact hreading.turn_end hsize more
  · rw [turn_of_closed hclosed]
    exact Or.inr ⟨hclosed, htext⟩

theorem Due.text_of_closed {total left : List UInt8} (h : Due size total left pump)
    (hclosed : pump.isOpen = false) : pump.text = size.decode total := by
  rcases h with ⟨bytes, -, hreading⟩ | ⟨-, htext⟩
  · rw [hreading.isOpen] at hclosed
    cases hclosed
  · exact htext

end Pump

/-! ### Sinks -/

def Channel.other : Channel → Channel
  | stdout => stderr
  | stderr => stdout

namespace Sink

/-- Whatever the sink is handed is noted in the journal as a chunk of the pipe. -/
def Records (channel : Channel) (sink : Sink) : Prop :=
  ∀ text w, (sink text w).1.journal.chunks channel = w.journal.chunks channel ++ [text]

/-- The sink notes nothing as a chunk of the pipe. -/
def Spares (channel : Channel) (sink : Sink) : Prop :=
  ∀ text w, (sink text w).1.journal.chunks channel = w.journal.chunks channel

variable {channel : Channel}

theorem recording_records (channel : Channel) (react : Journal → Option Fault) :
    (recording channel react).Records channel := by
  intro text w
  simp [recording, World.enter, Journal.chunks, Journal.seen_cons, Entry.chunk?]

theorem hand_records {sink : Sink} (hrecords : sink.Records channel) (chunks : List (List Char))
    (w : World) (hnone : (hand (some sink) chunks w).2 = none) :
    (hand (some sink) chunks w).1.journal.chunks channel =
      w.journal.chunks channel ++ chunks.map String.ofList := by
  induction chunks generalizing w with
  | nil => simp [hand]
  | cons chunk rest ih =>
      have hfirst := hrecords (String.ofList chunk) w
      cases hchunk : sink (String.ofList chunk) w with
      | mk v fault =>
          rw [hchunk] at hfirst
          cases fault with
          | none =>
              have hhand : hand (some sink) (chunk :: rest) w = hand (some sink) rest v := by
                rw [hand, hchunk]
              rw [hhand] at hnone ⊢
              rw [ih v hnone, hfirst, List.map_cons, List.append_assoc, List.singleton_append]
          | some fault =>
              rw [hand, hchunk] at hnone
              cases hnone

theorem hand_spares {sink : Option Sink} (hspares : ∀ s, sink = some s → s.Spares channel)
    (chunks : List (List Char)) (w : World) :
    (hand sink chunks w).1.journal.chunks channel = w.journal.chunks channel := by
  fun_induction hand sink chunks w with
  | case1 => rfl
  | case2 => rfl
  | case3 sink chunk rest w v hchunk ih =>
      have hfirst := hspares sink rfl (String.ofList chunk) w
      rw [hchunk] at hfirst
      rw [ih hspares, hfirst]
  | case4 sink chunk rest w v fault hchunk =>
      have hfirst := hspares sink rfl (String.ofList chunk) w
      rw [hchunk] at hfirst
      exact hfirst

end Sink

namespace Order

def sink (order : Order) : Channel → Option Sink
  | .stdout => order.onStdout
  | .stderr => order.onStderr

/-- The journal shows, as chunks of the pipe, what the sink of the pipe is handed. -/
structure Notes (order : Order) (channel : Channel) : Prop where
  records : ∃ sink, order.sink channel = some sink ∧ sink.Records channel
  spares : ∀ sink, order.sink channel.other = some sink → sink.Spares channel

end Order

def Pumps.pump (pumps : Pumps) : Channel → Pump
  | .stdout => pumps.stdout
  | .stderr => pumps.stderr

def Outcome.text (outcome : Outcome) : Channel → String
  | .stdout => outcome.stdout
  | .stderr => outcome.stderr

/-! ### Following a program -/

namespace Child

variable {child : Child} {pumps : Pumps} {turn : Turn} {w w' : World} {outcome : Outcome}
  {channel : Channel}

/-- The chunks that a turn hands to the sink of a pipe. -/
def fresh (child : Child) (turn : Turn) (pumps : Pumps) (channel : Channel) : List (List Char) :=
  ((pumps.pump channel).turn child.order.readSize (turn.bytes channel) turn.isLast).2

theorem read_pump (child : Child) (turn : Turn) (pumps : Pumps) (w : World) (channel : Channel) :
    (child.read turn pumps w).1.pump channel =
      ((pumps.pump channel).turn child.order.readSize (turn.bytes channel) turn.isLast).1 := by
  cases channel <;> rfl

/-- What the sinks make of the chunks of a turn, the one of the standard output first. -/
theorem read_sinks (child : Child) (turn : Turn) (pumps : Pumps) (w : World) :
    (child.read turn pumps w).2 =
      ((Sink.hand child.order.onStderr (child.fresh turn pumps .stderr)
          (Sink.hand child.order.onStdout (child.fresh turn pumps .stdout) w).1).1,
        (Sink.hand child.order.onStdout (child.fresh turn pumps .stdout) w).2.or
          (Sink.hand child.order.onStderr (child.fresh turn pumps .stderr)
            (Sink.hand child.order.onStdout (child.fresh turn pumps .stdout) w).1).2) := rfl

theorem read_chunks (hnotes : child.order.Notes channel)
    (hnone : (child.read turn pumps w).2.2 = none) :
    (child.read turn pumps w).2.1.journal.chunks channel =
      w.journal.chunks channel ++ (child.fresh turn pumps channel).map String.ofList := by
  obtain ⟨sink, hsink, hrecords⟩ := hnotes.records
  rw [read_sinks] at hnone ⊢
  obtain ⟨hfirst, hsecond⟩ := Option.or_eq_none_iff.mp hnone
  cases channel with
  | stdout =>
      have hsink : child.order.onStdout = some sink := hsink
      have hspares : ∀ s, child.order.onStderr = some s → s.Spares .stdout := hnotes.spares
      rw [hsink] at hfirst ⊢
      rw [Sink.hand_spares hspares, Sink.hand_records hrecords _ _ hfirst]
  | stderr =>
      have hsink : child.order.onStderr = some sink := hsink
      have hspares : ∀ s, child.order.onStdout = some s → s.Spares .stderr := hnotes.spares
      rw [hsink] at hsecond ⊢
      rw [Sink.hand_records hrecords _ _ hsecond, Sink.hand_spares hspares]

/-- A wait for the exit that comes to a good end is over when the program has exited by itself. -/
theorem reap_concludes (hends : (child.reap pumps w).Ends w' (.ok outcome)) :
    child.script.exit.isSome = true ∧ ∃ v, (child.conclude pumps v).Ends w' (.ok outcome) := by
  unfold reap at hends
  cases hexit : child.script.exitTime? with
  | none =>
      rw [hasExited, hexit] at hends
      obtain ⟨t, message, hstop⟩ := Course.ends_hanging.mp hends
      cases (stopped_stirs hstop).2
  | some exit =>
      have hexits : child.script.exitTime?.isSome = true := by rw [hexit]; rfl
      rw [Script.exitTime?, Option.isSome_map] at hexits
      refine ⟨hexits, ?_⟩
      rw [hexit] at hends
      split at hends
      · exact ⟨w, hends⟩
      · rcases Course.ends_waiting.mp hends with hgo | ⟨t, message, hstop⟩
        · exact ⟨_, hgo⟩
        · cases (stopped_stirs hstop).2

/-- A program that is followed to a good end exits by itself, and its output is what was read. -/
theorem reap_ok (hends : (child.reap pumps w).Ends w' (.ok outcome)) :
    Stirs w w' ∧ child.script.ExitsWith outcome.exitCode ∧
      ∀ channel, outcome.text channel = String.ofList (pumps.pump channel).text := by
  refine ⟨reap_stirs hends, ?_⟩
  obtain ⟨hexit, v, hconclude⟩ := reap_concludes hends
  obtain ⟨-, hok⟩ := Course.ends_ended.mp hconclude
  cases hok
  refine ⟨⟨hexit, rfl⟩, ?_⟩
  intro channel
  cases channel <;> rfl

/-- A good end comes after a turn in which no sink failed: then either both pipes have ended, or
there is another turn. -/
theorem follow_ok {rest : List Turn}
    (hends : (child.follow pumps (turn :: rest) w).Ends w' (.ok outcome)) :
    (child.read turn pumps w).2.2 = none ∧ ∃ v, Stirs (child.read turn pumps w).2.1 v ∧
      ((child.read turn pumps w).1.isDone = true ∧
          (child.reap (child.read turn pumps w).1 v).Ends w' (.ok outcome) ∨
        rest ≠ [] ∧ (child.follow (child.read turn pumps w).1 rest v).Ends w' (.ok outcome)) := by
  unfold follow at hends
  cases hread : child.read turn pumps w with
  | mk pumps' after =>
      obtain ⟨v, fault⟩ := after
      rw [hread] at hends
      cases fault with
      | some fault => cases (abandon_stirs hends).2
      | none =>
          refine ⟨rfl, ?_⟩
          simp only at hends
          split at hends
          · next hdone =>
              rcases Course.ends_waiting.mp hends with hgo | ⟨t, message, hstop⟩
              · exact ⟨_, stirs_pass v _, Or.inl ⟨hdone, hgo⟩⟩
              · cases (stopped_stirs hstop).2
          · cases rest with
            | nil =>
                obtain ⟨t, message, hstop⟩ := Course.ends_hanging.mp hends
                cases (stopped_stirs hstop).2
            | cons next more =>
                rcases Course.ends_waiting.mp hends with hgo | ⟨t, message, hstop⟩
                · exact ⟨_, stirs_pass v _, Or.inr ⟨by simp, hgo⟩⟩
                · cases (stopped_stirs hstop).2

theorem pump_closed_of_isDone (hdone : pumps.isDone = true) (channel : Channel) :
    (pumps.pump channel).isOpen = false := by
  simp only [Pumps.isDone, Bool.and_eq_true, Bool.not_eq_true'] at hdone
  cases channel with
  | stdout => exact hdone.1
  | stderr => exact hdone.2

/-- Turn by turn, the output grows into what reading makes of all the bytes, and the sink of the
pipe is handed just what the output grows by. -/
theorem follow_output {turns : List Turn} {total : List UInt8}
    (hlast : turns.Pairwise fun turn _ => turn.isLast = false)
    (hdue : (pumps.pump channel).Due child.order.readSize total (turns.flatMap (·.bytes channel)))
    (hends : (child.follow pumps turns w).Ends w' (.ok outcome)) :
    child.script.ExitsWith outcome.exitCode ∧
      outcome.text channel = String.ofList (child.order.readSize.decode total) ∧
      (child.order.Notes channel → ∃ chunks : List (List Char),
        w'.journal.chunks channel = w.journal.chunks channel ++ chunks.map String.ofList ∧
        (∀ chunk ∈ chunks, chunk ≠ []) ∧
        (pumps.pump channel).text ++ chunks.flatten = child.order.readSize.decode total) := by
  induction turns generalizing pumps w with
  | nil =>
      obtain ⟨t, message, hstop⟩ := Course.ends_hanging.mp hends
      cases (stopped_stirs hstop).2
  | cons turn rest ih =>
      obtain ⟨hnone, v, hstirs, hrest⟩ := follow_ok hends
      obtain ⟨hfirst, hlater⟩ := List.pairwise_cons.mp hlast
      have hend : turn.isLast = true → rest.flatMap (·.bytes channel) = [] := by
        intro htrue
        cases rest with
        | nil => rfl
        | cons next more =>
            rw [hfirst next List.mem_cons_self] at htrue
            cases htrue
      have hdue' := Pump.Due.turn hdue hend
      rw [← read_pump child turn pumps w channel] at hdue'
      have htext : ((child.read turn pumps w).1.pump channel).text =
          (pumps.pump channel).text ++ (child.fresh turn pumps channel).flatten := by
        rw [read_pump]
        exact Pump.turn_text _ _ _ _
      have hsolid : ∀ chunk ∈ child.fresh turn pumps channel, chunk ≠ [] :=
        Pump.turn_solid _ _ _ _
      rcases hrest with ⟨hdone, hreap⟩ | ⟨-, hfollow⟩
      · have hall := hdue'.text_of_closed (pump_closed_of_isDone hdone channel)
        obtain ⟨hafter, hcode, hout⟩ := reap_ok hreap
        refine ⟨hcode, by rw [hout, hall], ?_⟩
        intro hnotes
        refine ⟨child.fresh turn pumps channel, ?_, hsolid, by rw [← htext, hall]⟩
        rw [Stirs.chunks (hstirs.trans hafter), read_chunks hnotes hnone]
      · obtain ⟨hcode, hout, hchunks⟩ := ih hlater hdue' hfollow
        refine ⟨hcode, hout, ?_⟩
        intro hnotes
        obtain ⟨chunks, hjournal, hmore, hflatten⟩ := hchunks hnotes
        refine ⟨child.fresh turn pumps channel ++ chunks, ?_, ?_, ?_⟩
        · rw [hjournal, Stirs.chunks hstirs, read_chunks hnotes hnone, List.map_append,
            List.append_assoc]
        · intro chunk hchunk
          exact (List.mem_append.mp hchunk).elim (hsolid chunk) (hmore chunk)
        · rw [List.flatten_append, ← List.append_assoc, ← htext, hflatten]

end Child

namespace Order

variable {order : Order} {w w' : World} {outcome : Outcome}

theorem started_chunks (order : Order) (w : World) (channel : Channel) :
    (order.started w).journal.chunks channel = w.journal.chunks channel := by
  rw [← Stirs.chunks (order.begun_stirs w) channel]
  simp [started, launching, World.enter, Journal.chunks, Journal.seen_cons, Entry.chunk?]

/-- A launch with a good end has started a program, and it has the output and the exit code of that
program. -/
theorem launch_output (hends : (order.launch w).Ends w' (.ok outcome)) :
    ∃ script, w.responses.head? = some (.started script) ∧
      script.ExitsWith outcome.exitCode ∧
      ∀ channel,
        outcome.text channel = String.ofList (order.readSize.decode (script.sent channel)) ∧
        (order.Notes channel → ∃ chunks : List (List Char),
          w'.journal.chunks channel = w.journal.chunks channel ++ chunks.map String.ofList ∧
          (∀ chunk ∈ chunks, chunk ≠ []) ∧
          chunks.flatten = order.readSize.decode (script.sent channel)) := by
  rcases launch_cases hends with
    ⟨reason, -, hfail, -⟩ | ⟨script, hscript, hgo | ⟨t, message, hstop⟩⟩
  · cases hfail
  · refine ⟨script, hscript, ?_⟩
    have houtput (channel : Channel) := by
      have habsent : (script.pipe channel).isSome = false → script.sent channel = [] := by
        intro hnone
        rw [Script.sent, Option.isSome_eq_false_iff.mp hnone |> Option.isNone_iff_eq_none.mp]
        rfl
      have hdue : ((Pumps.ofScript script).pump channel).Due order.readSize (script.sent channel)
          (script.turns.flatMap (·.bytes channel)) := by
        rw [script.turns_bytes]
        cases channel with
        | stdout => exact Pump.due_ofPipe order.readSize habsent
        | stderr => exact Pump.due_ofPipe order.readSize habsent
      exact Child.follow_output script.turns_isLast hdue hgo
    refine ⟨(houtput .stdout).1, ?_⟩
    intro channel
    obtain ⟨-, htext, hchunks⟩ := houtput channel
    refine ⟨htext, ?_⟩
    intro hnotes
    obtain ⟨chunks, hjournal, hsolid, hflatten⟩ := hchunks hnotes
    refine ⟨chunks, ?_, hsolid, ?_⟩
    · rw [hjournal]
      exact congrArg (· ++ _) (order.started_chunks w channel)
    · have hstart : ((Pumps.ofScript script).pump channel).text = [] := by cases channel <;> rfl
      rw [hstart, List.nil_append] at hflatten
      exact hflatten
  · cases (Child.stopped_stirs hstop).2

/-- The output of a pipe is its bytes decoded in one piece, whatever the moments at which they came
and the sizes of the reads. The sink of the pipe was handed this text in non-empty chunks, and a
text that the program encoded comes out as it was. -/
theorem launch_text_eq_decode (channel : Channel) (hsize : order.readSize ≠ .nothing)
    (hends : (order.launch w).Ends w' (.ok outcome)) :
    ∃ script, w.responses.head? = some (.started script) ∧
      outcome.text channel = String.ofList (Utf8.decode (script.sent channel)) ∧
      (order.Notes channel → ∃ chunks : List String,
        w'.journal.chunks channel = w.journal.chunks channel ++ chunks ∧
        (∀ chunk ∈ chunks, chunk ≠ "") ∧ String.join chunks = outcome.text channel) ∧
      ∀ text, script.sent channel = Utf8.encode text → outcome.text channel = text := by
  obtain ⟨script, hscript, -, houtput⟩ := launch_output hends
  obtain ⟨htext, hchunks⟩ := houtput channel
  have hdecode :
      order.readSize.decode (script.sent channel) = Utf8.decode (script.sent channel) := by
    cases hread : order.readSize with
    | nothing => exact absurd hread hsize
    | upTo n => rfl
    | toEnd => rfl
  rw [hdecode] at htext hchunks
  refine ⟨script, hscript, htext, ?_, ?_⟩
  · intro hnotes
    obtain ⟨chunks, hjournal, hsolid, hflatten⟩ := hchunks hnotes
    refine ⟨chunks.map String.ofList, hjournal, ?_, ?_⟩
    · intro chunk hchunk
      obtain ⟨chars, hchars, rfl⟩ := List.mem_map.mp hchunk
      have hne := hsolid chars hchars
      simpa using hne
    · rw [htext, ← hflatten]
      apply String.toList_inj.mp
      rw [String.toList_join, List.flatMap_map, String.toList_ofList]
      simp [List.flatMap]
  · intro text hsent
    rw [htext, hsent, Utf8.decode_encode, String.ofList_toList]

/-- Reads byte by byte, and notes what it reads. -/
def bytewise : Order where
  program := .text "tool"
  args := []
  readSize := .upTo 0
  onStdout := some (.recording .stdout fun _ => none)

/-- A program whose output comes in two moments, with a cut inside a character. -/
def splitCharacter : Script where
  stdout := some [⟨2, [0xa9]⟩, ⟨1, [0xc3]⟩]
  exit := some 2

theorem launch_text_of_splitCharacter :
    bytewise.readSize ≠ .nothing ∧
      ∃ w', (bytewise.launch { responses := [.started splitCharacter] }).Ends w'
          (.ok ⟨"é", "", some 0⟩) ∧
        ∃ chunks, w'.journal.chunks .stdout = chunks ∧ (∀ chunk ∈ chunks, chunk ≠ "") ∧
          String.join chunks = "é" := by
  have hends := Course.ends_of_finish
    (c := bytewise.launch { responses := [.started splitCharacter] })
    (r := .ok ⟨"é", "", some 0⟩) rfl
  have hnotes : bytewise.Notes .stdout :=
    ⟨⟨_, rfl, Sink.recording_records .stdout _⟩, by simp [bytewise, sink, Channel.other]⟩
  obtain ⟨script, -, -, hchunks, -⟩ := launch_text_eq_decode .stdout (by decide) hends
  obtain ⟨chunks, hjournal, hsolid, hjoin⟩ := hchunks hnotes
  exact ⟨by decide, _, hends, chunks, hjournal, hsolid, hjoin⟩

end Order

end Conductor
