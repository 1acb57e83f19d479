import BLEBridge.Lib.Text
/-!
# Texts rewritten in memory

A loop that reads a C string at one address and writes another at a second one,
which may be the same. As long as the writing stays behind the reading, or is done
past the end of what is read, every byte is read as it was at first (`Copying`).
Reading stops before an address of its own, so a loop that reads past the terminator
has no result.
-/

namespace Lib

/-- The byte at `i`, if that may be read. -/
def load (mem : Bytes) (stop i : Nat) : Option UInt8 := if i < stop then mem[i]? else none

theorem load_lt {mem : Bytes} {stop i : Nat} {b : UInt8} (h : load mem stop i = some b) : i < stop := by
  by_contra hge
  rw [load, if_neg hge] at h
  cases h

def store (mem : Bytes) (i : Nat) (b : UInt8) : Option Bytes :=
  if i < mem.length then some (mem.set i b) else none

/-- From `first` on, `out` has been written at `dst`, and the text `s` is still to
be read at `src`; reading may go up to `stop`. -/
structure Copying (first : Bytes) (dst stop : Nat) (mem out : Bytes) (src : Nat) (s : Bytes) : Prop where
  length : mem.length = first.length
  written : ∀ i < out.length, mem[dst + i]? = out[i]?
  frame : ∀ i, i < dst ∨ dst + out.length ≤ i → mem[i]? = first[i]?
  text : ∀ i ≤ s.length, first[src + i]? = (s ++ [0])[i]?
  stop : stop = src + s.length + 1
  apart : dst + out.length ≤ src ∨ src + s.length < dst

namespace Copying
variable {first mem out s : Bytes} {dst stop src : Nat} {b : UInt8}

/-- Any text can be rewritten in place, or to a place before it or past its end. -/
theorem start (hs : ∀ i ≤ s.length, first[src + i]? = (s ++ [0])[i]?) (h : dst ≤ src ∨ src + s.length < dst) :
    Copying first dst (src + s.length + 1) first [] src s where
  length := rfl
  written _ h := absurd h (Nat.not_lt_zero _)
  frame _ _ := rfl
  text := hs
  stop := rfl
  apart := h

theorem load_eq (h : Copying first dst stop mem out src s) {i : Nat} (hi : i ≤ s.length) :
    load mem stop (src + i) = (s ++ [0])[i]? := by
  have hapart := h.apart
  have hstop := h.stop
  rw [load, if_pos (by omega), h.frame _ (by omega), h.text i hi]

theorem load_nil (h : Copying first dst stop mem out src []) : load mem stop src = some 0 := h.load_eq (le_refl 0)

theorem load_cons (h : Copying first dst stop mem out src (b :: s)) : load mem stop src = some b :=
  h.load_eq (Nat.zero_le _)

/-- The byte after the next one; the text ends with a NUL. -/
theorem load_cons_succ (h : Copying first dst stop mem out src (b :: s)) {i : Nat} (hi : i ≤ s.length) :
    load mem stop (src + (i + 1)) = (s ++ [0])[i]? := h.load_eq (Nat.succ_le_succ hi)

theorem skip (h : Copying first dst stop mem out src (b :: s)) : Copying first dst stop mem out (src + 1) s where
  length := h.length
  written := h.written
  frame := h.frame
  text i hi := by
    have hnext := h.text (i + 1) (Nat.succ_le_succ hi)
    rw [← Nat.add_assoc, Nat.add_right_comm] at hnext
    exact hnext
  stop := by
    have hstop := h.stop
    rw [List.length_cons] at hstop
    omega
  apart := by
    have hapart := h.apart
    rw [List.length_cons] at hapart
    omega

theorem store_eq (h : Copying first dst stop mem out src s) (hroom : dst + out.length < first.length)
    (b : UInt8) : Lib.store mem (dst + out.length) b = some (mem.set (dst + out.length) b) := by
  rw [Lib.store, if_pos (by rw [h.length]; exact hroom)]

theorem written_set (h : Copying first dst stop mem out src s)
    (hroom : dst + out.length < first.length) (b : UInt8) {i : Nat} (hi : i ≤ out.length) :
    (mem.set (dst + out.length) b)[dst + i]? = (out ++ [b])[i]? := by
  rcases Nat.lt_or_eq_of_le hi with hlt | rfl
  · rw [List.getElem?_set_ne (by omega), h.written i hlt, List.getElem?_append_left hlt]
  · rw [List.getElem?_set_self (by rw [h.length]; exact hroom), List.getElem?_append_right (le_refl _),
      Nat.sub_self]
    rfl

/-- A write where everything has been read, or past the end of the text. -/
theorem store (h : Copying first dst stop mem out src s) (hroom : dst + out.length < first.length)
    (happart : dst + out.length < src ∨ src + s.length < dst) (b : UInt8) :
    Copying first dst stop (mem.set (dst + out.length) b) (out ++ [b]) src s where
  length := by rw [List.length_set, h.length]
  written i hi := by
    rw [List.length_append, List.length_singleton] at hi
    exact h.written_set hroom b (Nat.le_of_lt_succ hi)
  frame i hi := by
    rw [List.length_append, List.length_singleton] at hi
    rw [List.getElem?_set_ne (by omega)]
    exact h.frame i (by omega)
  text := h.text
  stop := h.stop
  apart := by
    rw [List.length_append, List.length_singleton]
    omega

/-- One byte of the text is read and one is written. -/
theorem step (h : Copying first dst stop mem out src (b :: s)) (hroom : dst + out.length < first.length)
    (c : UInt8) : Copying first dst stop (mem.set (dst + out.length) c) (out ++ [c]) (src + 1) s := by
  have hapart := h.apart
  rw [List.length_cons] at hapart
  exact h.skip.store hroom (by omega) c

end Copying

/-- The bytes `out` and a terminator stand at `dst`, and all else is as it was. -/
structure Copied (first : Bytes) (dst : Nat) (mem out : Bytes) : Prop where
  length : mem.length = first.length
  text : ∀ i ≤ out.length, mem[dst + i]? = (out ++ [0])[i]?
  frame : ∀ i, i < dst ∨ dst + out.length < i → mem[i]? = first[i]?

/-- Writing the terminator. -/
theorem Copying.finish {first mem out s : Bytes} {dst stop src : Nat} (h : Copying first dst stop mem out src s)
    (hroom : dst + out.length < first.length) : Copied first dst (mem.set (dst + out.length) 0) out where
  length := by rw [List.length_set, h.length]
  text _ hi := h.written_set hroom 0 hi
  frame i hi := by
    rw [List.getElem?_set_ne (by omega)]
    exact h.frame i (by omega)

namespace Copied
variable {first mem out : Bytes} {dst : Nat}

theorem drop_eq (h : Copied first dst mem out) : mem.drop dst = out ++ 0 :: mem.drop (dst + out.length + 1) := by
  refine List.ext_getElem? fun i => ?_
  rw [List.getElem?_drop]
  rcases Nat.lt_or_ge out.length i with hlt | hle
  · rw [List.getElem?_append_right (by omega), List.getElem?_cons, if_neg (by omega), List.getElem?_drop]
    congr 1
    omega
  · rw [h.text i hle]
    rcases Nat.lt_or_eq_of_le hle with hlt | rfl
    · rw [List.getElem?_append_left hlt, List.getElem?_append_left hlt]
    · rw [List.getElem?_append_right (le_refl _), List.getElem?_append_right (le_refl _), Nat.sub_self]
      rfl

/-- The C string that stands there then. -/
theorem cstr_eq (h : Copied first dst mem out) : cstr (mem.drop dst) = cstr out := by
  rw [h.drop_eq, cstr, cstr, List.takeWhile_append]
  split
  · rename_i hall
    rw [List.takeWhile_cons_of_neg (by simp), List.append_nil]
    exact (List.takeWhile_prefix _).eq_of_length hall |>.symm
  · rfl

/-- What is written in a text that starts where it was. -/
theorem drop_text (h : Copied first dst mem out) {s rest : Bytes} (hfirst : first.drop dst = s ++ 0 :: rest)
    (hle : out.length ≤ s.length) :
    mem.drop (dst + s.length + 1) = rest ∧ mem.take dst = first.take dst := by
  constructor
  · have hrest : first.drop (dst + s.length + 1) = rest := by
      rw [Nat.add_assoc, ← List.drop_drop, hfirst, ← List.singleton_append, ← List.append_assoc]
      exact List.drop_left' (by rw [List.length_append, List.length_singleton])
    rw [← hrest]
    refine List.ext_getElem? fun i => ?_
    rw [List.getElem?_drop, List.getElem?_drop]
    exact h.frame _ (.inr (by omega))
  · refine List.ext_getElem? fun i => ?_
    rw [List.getElem?_take, List.getElem?_take]
    split
    · exact h.frame i (.inl ‹_›)
    · rfl

end Copied

/-- A text that stands at `src` in memory, with its terminator. -/
theorem getElem?_of_drop {mem s rest : Bytes} {src : Nat} (h : mem.drop src = s ++ 0 :: rest) :
    ∀ i ≤ s.length, mem[src + i]? = (s ++ [0])[i]? := by
  intro i hi
  rw [← List.getElem?_drop, h]
  rcases Nat.lt_or_eq_of_le hi with hlt | rfl
  · rw [List.getElem?_append_left hlt, List.getElem?_append_left hlt]
  · rw [List.getElem?_append_right (le_refl _), List.getElem?_append_right (le_refl _), Nat.sub_self]
    rfl

end Lib
