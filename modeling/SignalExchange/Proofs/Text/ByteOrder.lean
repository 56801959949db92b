import Mathlib.Data.String.Basic
import Mathlib.Order.Basic
import Mathlib.Tactic.SplitIfs

/-! The order of texts and the order of their UTF-8 bytes.

Texts are compared by code point. Their bytes compare the same way, so a table that ascends by
key ascends by the bytes of its keys.
-/

set_option autoImplicit false

namespace SignalExchange

def textBytes (text : String) : List UInt8 := text.toUTF8.data.toList

theorem textBytes_eq (text : String) :
    textBytes text = text.toList.flatMap String.utf8EncodeChar := by
  rw [textBytes, String.toUTF8_eq_toByteArray, ← String.utf8Encode_toList, List.utf8Encode,
    List.data_toByteArray]

/-- A byte decides the comparison unless it is the same on both sides. -/
theorem ofNat_cons_lt {a b : Nat} {s t : List UInt8} (large : b < 256) (atMost : a ≤ b)
    (rest : a = b → s < t) : UInt8.ofNat a :: s < UInt8.ofNat b :: t := by
  rw [List.cons_lt_cons_iff, UInt8.lt_iff_toNat_lt]
  rcases Nat.lt_or_eq_of_le atMost with below | same
  · left
    simpa [Nat.mod_eq_of_lt large, Nat.mod_eq_of_lt (below.trans large)] using below
  · exact .inr ⟨congrArg UInt8.ofNat same, rest same⟩

/-- A character below another has the lower bytes, whatever follows them. A longer code starts with
a greater byte; codes of one length compare as the digits of the code points to base 64. -/
theorem utf8EncodeChar_append_lt {c d : Char} (below : c < d) (s t : List UInt8) :
    String.utf8EncodeChar c ++ s < String.utf8EncodeChar d ++ t := by
  have low : c.val.toNat < d.val.toNat := by simpa [Char.lt_def, UInt32.lt_iff_toNat_lt] using below
  have high : d.val.toNat < 0x110000 := by
    have valid := d.valid
    simp only [UInt32.isValidChar, Nat.isValidChar] at valid
    omega
  unfold String.utf8EncodeChar
  generalize c.val.toNat = m at low
  generalize d.val.toNat = n at low high
  dsimp only
  split_ifs
  -- Only codes of the same length, and of more than one byte, do not differ in their first bytes.
  all_goals try exact ofNat_cons_lt (by omega) (by omega) (by omega)
  · exact ofNat_cons_lt (by omega) (by omega) fun _ =>
      ofNat_cons_lt (by omega) (by omega) (by omega)
  · exact ofNat_cons_lt (by omega) (by omega) fun _ =>
      ofNat_cons_lt (by omega) (by omega) fun _ =>
      ofNat_cons_lt (by omega) (by omega) (by omega)
  · exact ofNat_cons_lt (by omega) (by omega) fun _ =>
      ofNat_cons_lt (by omega) (by omega) fun _ =>
      ofNat_cons_lt (by omega) (by omega) fun _ =>
      ofNat_cons_lt (by omega) (by omega) (by omega)

theorem flatMap_utf8EncodeChar_lt {a b : List Char} (below : a < b) :
    a.flatMap String.utf8EncodeChar < b.flatMap String.utf8EncodeChar := by
  induction a generalizing b with
  | nil =>
    cases b with
    | nil => exact absurd below (List.not_lt_nil [])
    | cons d rest =>
      obtain ⟨byte, more, code⟩ :=
        List.exists_cons_of_ne_nil (String.utf8EncodeChar_ne_nil (c := d))
      simp [code]
  | cons c left ih =>
    cases b with
    | nil => exact absurd below (List.not_lt_nil _)
    | cons d right =>
      rw [List.flatMap_cons, List.flatMap_cons]
      rcases List.cons_lt_cons_iff.1 below with first | ⟨rfl, rest⟩
      · exact utf8EncodeChar_append_lt first _ _
      · exact List.append_left_lt (ih rest)

theorem textBytes_lt_iff (a b : String) : textBytes a < textBytes b ↔ a < b := by
  -- Both orders are total, so it is enough that one of them follows the other.
  have keeps {a b : String} (below : a < b) : textBytes a < textBytes b := by
    rw [textBytes_eq, textBytes_eq]
    exact flatMap_utf8EncodeChar_lt below
  constructor
  · intro bytes
    rcases lt_trichotomy a b with below | rfl | above
    · exact below
    · exact absurd bytes (List.lt_irrefl _)
    · exact absurd bytes (List.lt_asymm (keeps above))
  · exact keeps

end SignalExchange
