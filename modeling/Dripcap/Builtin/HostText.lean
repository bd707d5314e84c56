import Dripcap.Builtin.Instance
import Dripcap.Builtin.IPv6Text

/-!
# The texts of hosts

A host is written as its address, a colon and its port. From the text the host can be read back: an
IPv4 address has dots and an IPv6 address has none, and the last colon is the one before the port.
-/

namespace Dripcap

open AddressText

/-! ### Numbers -/

lemma notMem_toDigits {c : Char} (hc : c.isDigit = false) (n : ℕ) : c ∉ Nat.toDigits 10 n := by
  intro h
  have hdigit := Nat.isDigit_of_mem_toDigits (by decide) (by decide) h
  rw [hc] at hdigit
  cases hdigit

lemma toDigits_injective : Function.Injective (Nat.toDigits 10) := by
  intro m n h
  rw [← Nat.ofDigitChars_ten_toDigits (n := m), h, Nat.ofDigitChars_ten_toDigits]

/-- What stands behind the last separator. -/
lemma append_cons_inj_of_notMem_right {α : Type} {a : α} {x₁ x₂ z₁ z₂ : List α} (h₁ : a ∉ z₁)
    (h₂ : a ∉ z₂) (h : x₁ ++ a :: z₁ = x₂ ++ a :: z₂) : x₁ = x₂ ∧ z₁ = z₂ := by
  rcases List.append_eq_append_iff.mp h with ⟨c, rfl, hc⟩ | ⟨c, rfl, hc⟩
  · cases c with
    | nil => exact ⟨(List.append_nil _).symm, (List.cons.inj hc).2⟩
    | cons b c =>
      obtain ⟨-, rfl⟩ := List.cons.inj hc
      exact absurd (List.mem_append_right c List.mem_cons_self) h₁
  · cases c with
    | nil => exact ⟨List.append_nil _, (List.cons.inj hc).2.symm⟩
    | cons b c =>
      obtain ⟨-, rfl⟩ := List.cons.inj hc
      exact absurd (List.mem_append_right c List.mem_cons_self) h₂

/-! ### Addresses -/

namespace IPv4Address

lemma toList_toString (x : IPv4Address) : x.toString.toList =
    Nat.toDigits 10 (x.byte 0) ++ '.' :: Nat.toDigits 10 (x.byte 1) ++ '.' ::
      Nat.toDigits 10 (x.byte 2) ++ '.' :: Nat.toDigits 10 (x.byte 3) := by
  simp [IPv4Address.toString]

/-- There are only digits and dots. -/
lemma notMem_toString {c : Char} (hc : c.isDigit = false) (hdot : c ≠ '.') (x : IPv4Address) :
    c ∉ x.toString.toList := by
  rw [toList_toString]
  simp [hdot, notMem_toDigits hc]

lemma dot_mem_toString (x : IPv4Address) : '.' ∈ x.toString.toList := by
  rw [toList_toString]
  exact List.mem_append_right _ List.mem_cons_self

lemma toString_injective : Function.Injective toString := by
  intro x y h
  have htext := congrArg String.toList h
  have hdot : ∀ n : ℕ, '.' ∉ Nat.toDigits 10 n := notMem_toDigits rfl
  rw [toList_toString, toList_toString] at htext
  obtain ⟨htext, h3⟩ := append_cons_inj_of_notMem_right (hdot _) (hdot _) htext
  obtain ⟨htext, h2⟩ := append_cons_inj_of_notMem_right (hdot _) (hdot _) htext
  obtain ⟨h0, h1⟩ := append_cons_inj_of_notMem_right (hdot _) (hdot _) htext
  have hbyte : ∀ i, x.byte i = y.byte i := by
    intro i
    apply toDigits_injective
    match i with
    | 0 => exact h0
    | 1 => exact h1
    | 2 => exact h2
    | 3 => exact h3
  obtain ⟨data, hx⟩ := x
  obtain ⟨data', hy⟩ := y
  have hdata : data = data' := by
    apply List.ext_getElem (hx.trans hy.symm)
    intro i hi hi'
    exact UInt8.toNat_inj.mp (hbyte ⟨i, hx ▸ hi⟩)
  cases hdata
  rfl

end IPv4Address

namespace IPv6Address

lemma mem_text {c : Char} {gs : List ℕ} (h : c ∈ text gs) : c = ':' ∨ ∃ v < 16, c = Nat.digitChar v := by
  induction gs with
  | nil => cases h
  | cons g gs ih =>
    have hdigit : c ∈ Nat.toDigits 16 g → c = ':' ∨ ∃ v < 16, c = Nat.digitChar v :=
      fun h => .inr (exists_of_mem_toDigits h)
    by_cases hgs : gs = []
    · rw [hgs, text_singleton] at h
      exact hdigit h
    · rw [text_cons hgs, List.mem_append, List.mem_cons] at h
      rcases h with h | h | h
      · exact hdigit h
      · exact .inl h
      · exact ih h

/-- There are only digits and colons. -/
lemma mem_toString {c : Char} {x : IPv6Address} (h : c ∈ x.toString.toList) : c ≠ '.' ∧ c ≠ '/' := by
  have hchar : c = ':' ∨ ∃ v < 16, c = Nat.digitChar v := by
    rw [toString_eq, shortText] at h
    split at h
    · exact mem_text h
    · rw [List.mem_append, List.mem_cons, List.mem_cons] at h
      rcases h with h | h | h | h
      · exact mem_text h
      · exact .inl h
      · exact .inl h
      · exact mem_text h
  rcases hchar with rfl | ⟨v, hv, rfl⟩
  · decide
  · exact (digitChar_ne v hv).2

end IPv6Address

/-! ### Hosts -/

/-- The addresses that hosts have. -/
inductive NetAddress where
  | ipv4 (a : IPv4Address)
  | ipv6 (a : IPv6Address)

namespace NetAddress

def host (x : NetAddress) (port : ℕ) (h : port ≤ 65535) : Instance :=
  match x with
  | .ipv4 a => .ipv4Host ⟨a, port, h⟩
  | .ipv6 a => .ipv6Host ⟨a, port, h⟩

/-- The text of the address. -/
def text : NetAddress → List Char
  | .ipv4 a => a.toString.toList
  | .ipv6 a => a.toString.toList

lemma text_injective : Function.Injective text := by
  intro x y h
  cases x with
  | ipv4 x =>
    cases y with
    | ipv4 y => exact congrArg ipv4 (IPv4Address.toString_injective (String.toList_inj.mp h))
    | ipv6 y =>
      have hdot : '.' ∈ text (ipv6 y) := by
        rw [← h]
        exact x.dot_mem_toString
      exact absurd rfl (IPv6Address.mem_toString hdot).1
  | ipv6 x =>
    cases y with
    | ipv4 y =>
      have hdot : '.' ∈ text (ipv6 x) := by
        rw [h]
        exact y.dot_mem_toString
      exact absurd rfl (IPv6Address.mem_toString hdot).1
    | ipv6 y => exact congrArg ipv6 (IPv6Address.toString_injective (String.toList_inj.mp h))

variable {x y : NetAddress} {p q : ℕ} {hp : p ≤ 65535} {hq : q ≤ 65535}

lemma toList_host : (x.host p hp).toString.toList = x.text ++ ':' :: Nat.toDigits 10 p := by
  cases x with
  | ipv4 a => simp [host, text, Instance.toString, IPv4Host.toString]
  | ipv6 a => simp [host, text, Instance.toString, IPv6Host.toString]

/-- The slash that separates hosts is in none. -/
lemma slash_notMem : '/' ∉ (x.host p hp).toString.toList := by
  rw [toList_host, List.mem_append, List.mem_cons]
  rintro (h | h | h)
  · cases x with
    | ipv4 a => exact a.notMem_toString rfl (by decide) h
    | ipv6 a => exact absurd rfl (IPv6Address.mem_toString h).2
  · cases h
  · exact notMem_toDigits rfl p h

/-- Hosts with the same text are the same. -/
lemma host_toString_inj :
    (x.host p hp).toString = (y.host q hq).toString ↔ x = y ∧ p = q := by
  constructor
  · intro h
    have htext := congrArg String.toList h
    rw [toList_host, toList_host] at htext
    obtain ⟨haddr, hport⟩ :=
      append_cons_inj_of_notMem_right (notMem_toDigits rfl p) (notMem_toDigits rfl q) htext
    exact ⟨text_injective haddr, toDigits_injective hport⟩
  · rintro ⟨rfl, rfl⟩
    rfl

end NetAddress

end Dripcap
