import Hostcontrold.Interaction.World
import Hostcontrold.Network.Conversion

/-!
# The iterator of the conversion

The conversion reads the text through an iterator that is dereferenced and advanced, but
never compared with the end of the text, and writes the octets through a pointer. Here
this is a program over `IterOp`, and where the iterator is, what it has read and what has
been written is a `Cursor`.

The iterator is advanced only over a character that has been read and is not NUL. So it
cannot get past the first NUL, and not past the end of the text, where a NUL is read: this
is the invariant `Inside`, kept by every operation. Thus the conversion stays inside its
buffers (`stays_inside`). It makes the same accesses as the conversion of
`Hostcontrold.Network.WakeOnLan`, where positions are explicit (`sameAccesses`).
-/

namespace Hostcontrold

open Interaction Program

/-- The operations of the conversion. -/
inductive IterOp
  | deref
  | advance
  | store (octet : UInt8)
  | logErr (message : Bytes)
  deriving DecidableEq, Repr

abbrev IterOp.Ans : IterOp → Type
  | .deref => UInt8
  | _ => Unit

abbrev IterAction := Program IterOp.Ans

namespace WakeOnLan

def advanceIf (p : Prop) [Decidable p] : IterAction Unit :=
  if p then perform IterOp.advance else return ()

/-- The body of the loop. It answers false if the conversion fails. -/
def convertOctet (mac : Bytes) : IterAction Bool := do
  let c ← perform IterOp.deref
  perform IterOp.advance
  match hexDigit? c with
  | none =>
    perform (IterOp.logErr (ascii "Invalid ether address: " ++ cStr mac))
    return false
  | some digit =>
    let c ← perform IterOp.deref
    match addDigit? (digit <<< 4) c with
    | none =>
      perform (IterOp.logErr (ascii "Invalid ether address: " ++ cStr mac))
      return false
    | some val =>
      advanceIf (c ≠ 0)
      perform (IterOp.store (val &&& 0o377).toUInt8)
      -- We might get a semicolon here - not required.
      advanceIf ((← perform IterOp.deref) = ':'.toUInt8)
      return true

/-- The loop of the conversion, after `i` iterations. It answers the number of completed
    iterations, too. -/
def convertLoop (mac : Bytes) (i : Nat) : IterAction (Bool × Nat) := do
  let c ← perform IterOp.deref
  if c ≠ 0 ∧ i < kEthAlen then
    if ← convertOctet mac then convertLoop mac (i + 1) else return (false, i)
  else return (true, i)
termination_by kEthAlen - i

/-- Where the iterator is, the positions it has read and the octets written. -/
structure Cursor where
  position : Nat
  reads : List Nat
  written : Bytes
  deriving DecidableEq, Repr

def cursorHandler (mac : Bytes) : Handler IterOp.Ans Cursor
  | .deref, w => (charAt mac w.position, { w with reads := w.reads ++ [w.position] })
  | .advance, w => ((), { w with position := w.position + 1 })
  | .store octet, w => ((), { w with written := w.written ++ [octet] })
  | .logErr _, w => ((), w)

/-- At the beginning. -/
def Cursor.start : Cursor := ⟨0, [], []⟩

/-- The conversion of a text. -/
def convert (mac : Bytes) : Execution IterOp.Ans (Bool × Nat) Cursor :=
  exec (cursorHandler mac) (convertLoop mac 0) Cursor.start

/-- Neither the text nor the buffer has been left. -/
structure InBuffers (mac : Bytes) (w : Cursor) : Prop where
  position_le : w.position ≤ mac.length
  reads_le : ∀ p ∈ w.reads, p ≤ mac.length
  reads_no_nul : ∀ p ∈ w.reads, ∀ j < p, charAt mac j ≠ 0
  written_le : w.written.length ≤ kEthAlen

/-! ## Inside the buffers -/

/-- There is no NUL before a position. -/
def NoNulBefore (mac : Bytes) (position : Nat) : Prop := ∀ j < position, charAt mac j ≠ 0

/-- After `k` iterations, and the first `k` octets: there is no NUL before the iterator,
    and there has been none before what it has read. -/
structure Inside (mac : Bytes) (k : Nat) (w : Cursor) : Prop where
  position : NoNulBefore mac w.position
  reads : ∀ p ∈ w.reads, NoNulBefore mac p
  written : w.written.length = k

variable {mac : Bytes} {k position : Nat} {w : Cursor}

theorem NoNulBefore.le_length (h : NoNulBefore mac position) : position ≤ mac.length := by
  by_contra hlt
  exact h mac.length (Nat.lt_of_not_le hlt) (by simp [charAt])

/-- A character that is not NUL may be passed over. -/
theorem NoNulBefore.succ (h : NoNulBefore mac position) (hc : charAt mac position ≠ 0) :
    NoNulBefore mac (position + 1) := by
  intro j hj
  rcases Nat.lt_or_eq_of_le (Nat.le_of_lt_succ hj) with hj | rfl
  · exact h j hj
  · exact hc

theorem Inside.start : Inside mac 0 Cursor.start where
  position := fun j hj => absurd hj (Nat.not_lt_zero j)
  reads := fun _ hp => absurd hp List.not_mem_nil
  written := rfl

theorem Inside.inBuffers (h : Inside mac k w) (hk : k ≤ kEthAlen) : InBuffers mac w where
  position_le := h.position.le_length
  reads_le := fun p hp => (h.reads p hp).le_length
  reads_no_nul := h.reads
  written_le := h.written ▸ hk

section

variable (hk : k ≤ kEthAlen)

include hk

theorem triple_deref (R : UInt8 → Prop) :
    Triple (World.ofHandler (cursorHandler mac))
      (fun w => Inside mac k w ∧ R (charAt mac w.position)) (perform IterOp.deref)
      (fun c w => Inside mac k w ∧ charAt mac w.position = c ∧ R c) (InBuffers mac) := by
  refine .perform_ofHandler ?_ (fun w h => h.1.inBuffers hk) fun c w h => h.1.inBuffers hk
  rintro w ⟨h, hR⟩
  refine ⟨⟨h.position, ?_, h.written⟩, rfl, hR⟩
  intro p hp
  rcases List.mem_append.1 hp with hp | hp
  · exact h.reads p hp
  · exact List.mem_singleton.1 hp ▸ h.position

theorem triple_read :
    Triple (World.ofHandler (cursorHandler mac)) (Inside mac k) (perform IterOp.deref)
      (fun c w => Inside mac k w ∧ charAt mac w.position = c) (InBuffers mac) :=
  (triple_deref hk fun _ => True).conseq (fun _ h => ⟨h, trivial⟩) fun _ _ h => ⟨h.1, h.2.1⟩

theorem triple_advance :
    Triple (World.ofHandler (cursorHandler mac))
      (fun w => Inside mac k w ∧ charAt mac w.position ≠ 0) (perform IterOp.advance)
      (fun _ => Inside mac k) (InBuffers mac) := by
  refine .perform_ofHandler ?_ (fun w h => h.1.inBuffers hk) fun c w h => h.inBuffers hk
  rintro w ⟨h, hc⟩
  exact ⟨h.position.succ hc, h.reads, h.written⟩

/-- The iterator is advanced over a character that has been read, unless it is NUL. -/
theorem triple_advanceIf {p : Prop} [Decidable p] {c : UInt8} (hp : p → c ≠ 0) :
    Triple (World.ofHandler (cursorHandler mac))
      (fun w => Inside mac k w ∧ charAt mac w.position = c) (advanceIf p)
      (fun _ => Inside mac k) (InBuffers mac) := by
  rw [advanceIf]
  split_ifs with h
  · refine (triple_advance hk).conseq ?_ fun _ _ h => h
    rintro w ⟨hw, rfl⟩
    exact ⟨hw, hp h⟩
  · exact .pure (fun w hw => hw.1) fun w hw => hw.1.inBuffers hk

theorem triple_logErr {message : Bytes} :
    Triple (World.ofHandler (cursorHandler mac)) (Inside mac k)
      (perform (IterOp.logErr message)) (fun _ => Inside mac k) (InBuffers mac) :=
  .perform_ofHandler (fun _ h => h) (fun _ h => h.inBuffers hk) fun _ _ h => h.inBuffers hk

/-- The conversion of an octet has failed. -/
theorem triple_invalid {message : Bytes} :
    Triple (World.ofHandler (cursorHandler mac)) (Inside mac k)
      (do perform (IterOp.logErr message); return false)
      (fun done => Inside mac (if done then k + 1 else k)) (InBuffers mac) :=
  .bind (triple_logErr hk) fun _ => .pure (fun _ h => h) fun _ h => h.inBuffers hk

end

theorem triple_store (hk : k < kEthAlen) {octet : UInt8} :
    Triple (World.ofHandler (cursorHandler mac)) (Inside mac k) (perform (IterOp.store octet))
      (fun _ => Inside mac (k + 1)) (InBuffers mac) := by
  refine .perform_ofHandler ?_ (fun w h => h.inBuffers (Nat.le_of_lt hk)) ?_
  · intro w h
    exact ⟨h.position, h.reads, List.length_append.trans (congrArg (· + 1) h.written)⟩
  · exact fun _ w h => h.inBuffers hk

/-- An iteration: an octet is written, unless the conversion fails. -/
theorem triple_convertOctet (hk : k < kEthAlen) :
    Triple (World.ofHandler (cursorHandler mac))
      (fun w => Inside mac k w ∧ charAt mac w.position ≠ 0) (convertOctet mac)
      (fun done => Inside mac (if done then k + 1 else k)) (InBuffers mac) := by
  have hle := Nat.le_of_lt hk
  have hfirst (c : UInt8) : Triple (World.ofHandler (cursorHandler mac))
      (fun w => Inside mac k w ∧ charAt mac w.position = c ∧ c ≠ 0) (perform IterOp.advance)
      (fun _ => Inside mac k) (InBuffers mac) := by
    refine (triple_advance hle).conseq ?_ fun _ _ h => h
    rintro w ⟨hw, rfl, hc⟩
    exact ⟨hw, hc⟩
  refine .bind (triple_deref hle (· ≠ 0)) fun c => .bind (hfirst c) fun _ => ?_
  cases hexDigit? c with
  | none => exact triple_invalid hle
  | some digit =>
    refine .bind (triple_read hle) fun c => ?_
    cases addDigit? (digit <<< 4) c with
    | none => exact (triple_invalid hle).conseq (fun _ h => h.1) fun _ _ h => h
    | some val =>
      -- Two more characters may be passed over, and neither is NUL.
      refine .bind (triple_advanceIf hle id) fun _ => .bind (triple_store hk) fun _ =>
        .bind (triple_read hk) fun c => .bind (triple_advanceIf hk ?_) fun _ => ?_
      · rintro rfl
        decide
      · exact .pure (fun _ h => h) fun _ h => h.inBuffers hk

/-- The loop, after `k` iterations. -/
theorem triple_convertLoop (hk : k ≤ kEthAlen) :
    Triple (World.ofHandler (cursorHandler mac)) (Inside mac k) (convertLoop mac k)
      (fun r w => Inside mac r.2 w ∧ r.2 ≤ kEthAlen) (InBuffers mac) := by
  induction h : kEthAlen - k generalizing k with
  | zero =>
    rw [convertLoop]
    refine .bind (triple_read hk) fun c => ?_
    rw [if_neg fun hc => by omega]
    exact .pure (fun w hw => ⟨hw.1, hk⟩) fun w hw => hw.1.inBuffers hk
  | succ n ih =>
    rw [convertLoop]
    refine .bind (triple_read hk) fun c => ?_
    split_ifs with hc
    · -- The loop goes on if the character is not NUL, and the iteration starts with it.
      have hround : Triple (World.ofHandler (cursorHandler mac))
          (fun w => Inside mac k w ∧ charAt mac w.position = c) (convertOctet mac)
          (fun done => Inside mac (if done then k + 1 else k)) (InBuffers mac) := by
        refine (triple_convertOctet hc.2).conseq ?_ fun _ _ h => h
        rintro w ⟨hw, rfl⟩
        exact ⟨hw, hc.1⟩
      refine .bind hround fun done => ?_
      cases done with
      | true =>
        have hn : kEthAlen - (k + 1) = n := by omega
        exact ih hc.2 hn
      | false => exact .pure (fun w hw => ⟨hw, hk⟩) fun w hw => hw.inBuffers hk
    · exact .pure (fun w hw => ⟨hw.1, hk⟩) fun w hw => hw.1.inBuffers hk

/-! ## The end -/

theorem atMost_advanceIf (p : Prop) [Decidable p] : (advanceIf p).AtMost 1 := by
  rw [advanceIf]
  split_ifs
  · exact atMost_perform _
  · exact atMost_pure _

theorem atMost_convertOctet (mac : Bytes) : (convertOctet mac).AtMost 7 := by
  have hinvalid (message : Bytes) :
      (do perform (IterOp.logErr message); return false : IterAction Bool).AtMost 1 :=
    (atMost_perform _).bind fun _ => atMost_pure _
  refine (atMost_perform _).bind fun c => (atMost_perform _).bind fun _ => ?_
  cases hexDigit? c with
  | none => exact (hinvalid _).mono (by decide)
  | some digit =>
    refine (atMost_perform _).bind fun c => ?_
    cases addDigit? (digit <<< 4) c with
    | none => exact (hinvalid _).mono (by decide)
    | some val =>
      exact (atMost_advanceIf _).bind fun _ => (atMost_perform _).bind fun _ =>
        (atMost_perform _).bind fun _ => (atMost_advanceIf _).bind fun _ => atMost_pure _

/-- An iteration and its condition take at most 8 operations, and the condition is tested
    once more in the end. -/
theorem atMost_convertLoop (mac : Bytes) (i : Nat) :
    (convertLoop mac i).AtMost ((kEthAlen - i) * 8 + 1) := by
  induction h : kEthAlen - i generalizing i with
  | zero =>
    rw [convertLoop]
    refine (atMost_perform _).bind fun c => ?_
    rw [if_neg fun hc => by omega]
    exact atMost_pure _
  | succ n ih =>
    rw [convertLoop]
    refine (atMost_perform _).bind fun c => ?_
    split_ifs
    · have hn : (n + 1) * 8 = n * 8 + 1 + 7 := by omega
      rw [hn]
      refine (atMost_convertOctet mac).bind fun done => ?_
      cases done with
      | true => exact ih (i + 1) (by omega)
      | false => exact atMost_pure _
    · exact atMost_pure _

/-- The conversion of any text ends, inside the buffers: the iterator has not been moved
    past the end, nothing has been read after the first NUL, and as many octets have been
    written as there were iterations, at most `kEthAlen`. -/
theorem stays_inside (mac : Bytes) :
    (∀ tr tr', (convert mac).trace = tr ++ tr' →
      InBuffers mac (Handler.after (cursorHandler mac) Cursor.start tr)) ∧
    InBuffers mac (convert mac).state ∧
    (convert mac).state.written.length = (convert mac).result.2 ∧
    (convert mac).trace.length ≤ kEthAlen * 8 + 1 := by
  have hloop := @triple_convertLoop mac 0 (Nat.zero_le kEthAlen)
  obtain ⟨hinside, hle⟩ := hloop.post_exec Inside.start
  refine ⟨fun tr tr' htr => hloop.crash_after Inside.start htr, hinside.inBuffers hle,
    hinside.written, ?_⟩
  exact (exec_runs _ _ _).length_le (atMost_convertLoop mac 0)

/-! ## The accesses -/

/-- The position read with an event, if it is a read. -/
def readPosition? : Event WolOp.Ans → Option Nat
  | ⟨.read position, _⟩ => some position
  | _ => none

/-- The octet written with an event, if it is a write. -/
def writtenOctet? : Event WolOp.Ans → Option UInt8
  | ⟨.write _ octet, _⟩ => some octet
  | _ => none

/-- The one conversion makes the accesses of the other, after those of the cursor. -/
structure SameAccesses (w : Cursor) (r : Execution IterOp.Ans (Bool × Nat) Cursor)
    (s : Execution WolOp.Ans Bool Buffer) : Prop where
  result : r.result.1 = s.result
  reads : r.state.reads = w.reads ++ s.trace.filterMap readPosition?
  written : r.state.written = w.written ++ s.trace.filterMap writtenOctet?

variable {sockets : Sockets} {ethaddr : Buffer}

attribute [local simp] cursorHandler handler readPosition? writtenOctet?

theorem exec_advanceIf {p : Prop} [Decidable p] :
    exec (cursorHandler mac) (advanceIf p) w =
      if p then ⟨[⟨.advance, ()⟩], (), { w with position := w.position + 1 }⟩
      else ⟨[], (), w⟩ := by
  rw [advanceIf]
  split_ifs <;> rfl

/-- An iteration with a valid octet. -/
theorem exec_convertOctet {octet : UInt8} (hoctet : octetAt? mac position = some octet)
    (reads : List Nat) (written : Bytes) :
    (exec (cursorHandler mac) (convertOctet mac) ⟨position, reads, written⟩).result = true ∧
      (exec (cursorHandler mac) (convertOctet mac) ⟨position, reads, written⟩).state =
        ⟨nextOctet mac position, reads ++ [position, position + 1, octetEnd mac position],
          written ++ [octet]⟩ := by
  obtain ⟨digit, hdigit, hoctet⟩ := Option.bind_eq_some_iff.1 hoctet
  obtain ⟨val, hval, rfl⟩ := Option.map_eq_some_iff.1 hoctet
  rw [convertOctet, nextOctet]
  by_cases hz : charAt mac (position + 1) = 0
  · have hnext : octetEnd mac position = position + 1 := if_pos hz
    have hc : (0 : UInt8) ≠ ':'.toUInt8 := by decide
    rw [hz] at hval
    simp [exec_advanceIf, hnext, hdigit, hval, hz, hc, -bind_pure_comp]
  · have hnext : octetEnd mac position = position + 2 := if_neg hz
    by_cases hc : charAt mac (position + 2) = ':'.toUInt8
    · simp [exec_advanceIf, hnext, hdigit, hval, hz, hc, -bind_pure_comp]
    · simp [exec_advanceIf, hnext, hdigit, hval, hz, hc, -bind_pure_comp]

/-- The loop, with `n` octets to go. -/
theorem sameAccesses_convertFrom {n : Nat} (hn : n ≤ kEthAlen) (reads : List Nat)
    (written : Bytes) :
    SameAccesses ⟨position, reads, written⟩
      (exec (cursorHandler mac) (convertLoop mac (kEthAlen - n)) ⟨position, reads, written⟩)
      (exec (handler mac sockets) (convertFrom mac n position) ethaddr) := by
  induction n generalizing position reads written ethaddr with
  | zero =>
    rw [convertLoop, convertFrom]
    constructor <;> simp [-bind_pure_comp]
  | succ n ih =>
    rw [convertLoop]
    -- The two loops test the end, convert an octet and go on in the same way.
    by_cases hend : charAt mac position = 0
    · rw [convertFrom]
      constructor <;> simp [hend, -bind_pure_comp]
    have hlt : kEthAlen - (n + 1) < kEthAlen := by omega
    cases hoctet : octetAt? mac position with
    | none =>
      rw [convertOctet, convertFrom]
      cases hdigit : hexDigit? (charAt mac position) with
      | none => constructor <;> simp [hend, hlt, hdigit, -bind_pure_comp]
      | some digit =>
        have hval : addDigit? (digit <<< 4) (charAt mac (position + 1)) = none := by
          simpa [octetAt?, hdigit] using hoctet
        constructor <;> simp [hend, hlt, hdigit, hval, -bind_pure_comp]
    | some octet =>
      have hi : kEthAlen - (n + 1) + 1 = kEthAlen - n := by omega
      obtain ⟨hresult, hstate⟩ := exec_convertOctet hoctet (reads ++ [position]) written
      obtain ⟨h, hreads, hwritten⟩ := @ih (nextOctet mac position)
        (ethaddr.set (kEthAlen - (n + 1)) octet) (Nat.le_of_succ_le hn)
        (reads ++ [position] ++ [position, position + 1, octetEnd mac position])
        (written ++ [octet])
      rw [exec_convertFrom_octet hend hoctet]
      refine ⟨?_, ?_, ?_⟩
      · simpa [hend, hlt, hresult, hi, hstate] using h
      · simpa [hend, hlt, hresult, hi, hstate, List.filterMap_cons] using hreads
      · simpa [hend, hlt, hresult, hi, hstate, List.filterMap_cons] using hwritten

/-- The conversion with an iterator makes the accesses of the conversion with positions,
    and has the same result. -/
theorem sameAccesses (mac : Bytes) (sockets : Sockets) (ethaddr : Buffer) :
    SameAccesses Cursor.start (convert mac)
      (exec (handler mac sockets) (convertMacStringToBinary mac) ethaddr) :=
  sameAccesses_convertFrom (Nat.le_refl kEthAlen) [] []

end WakeOnLan

end Hostcontrold
