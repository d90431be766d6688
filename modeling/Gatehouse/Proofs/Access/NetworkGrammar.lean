import Mathlib
import Gatehouse.Access.Network
import Gatehouse.Proofs.Address.Grammar
/-!
# The grammar of networks

Which texts stand for which network, said without the reader (`Network.Denotes`): an address alone,
which is a network of one, or an address, a slash and a number of bits, each possibly between
blanks. The reader accepts exactly the texts whose number of bits fits the address, and every other
text gets the error that says what is wrong with it (`Network.parse_accepts_its_grammar`).
-/

namespace Gatehouse

open Gatehouse.Text

namespace Network

/-! ## The grammar -/

/-- A number of bits in text: decimal digits after an optional plus sign, up to 255. -/
structure LengthText (cs : List Char) (n : Nat) : Prop where
  numeral : ∃ ds, (cs = ds ∨ cs = '+' :: ds) ∧ Numeral 10 ds n
  le : n ≤ 255

/-- What a text stands for: an address and a number of bits, which may be too large for it. -/
inductive Denotes (text : String) : IpAddr → Nat → Prop
  /-- an address alone, between blanks; all of its bits count -/
  | host {addr : IpAddr} {core : List Char} (whole : '/' ∉ text.toList)
      (trimmed : Trimmed text.toList core) (spelling : addr.Spelling core) :
      Denotes text addr addr.width
  /-- an address and a number of bits around the first slash, each between blanks -/
  | network {addr : IpAddr} {n : Nat} {before after left right : List Char}
      (slash : text.toList = before ++ '/' :: after) (first : '/' ∉ before)
      (trimmedLeft : Trimmed before left) (spelling : addr.Spelling left)
      (trimmedRight : Trimmed after right) (length : LengthText right n) :
      Denotes text addr n

/-! ## Reading -/

/-- What is read are the digits after the sign, if there is one, if their value is below 256. -/
theorem readLength?_of_digits {cs ds : List Char}
    (sign : cs = '+' :: ds ∨ (cs = ds ∧ ∀ rest, cs ≠ '+' :: rest)) (n : Nat) :
    readLength? cs = some n ↔ Numeral 10 ds n ∧ n ≤ 255 := by
  have hread : readLength? cs = some n ↔ natural? 10 ds = some n ∧ n < 256 := by
    rcases sign with rfl | ⟨rfl, unsigned⟩
    · cases h : natural? 10 ds <;> grind [readLength?]
    · unfold readLength?
      split
      · exact absurd rfl (unsigned _)
      · cases h : natural? 10 cs <;> grind
  rw [hread, natural?_eq_some_iff (show 10 ≤ 16 by omega), Nat.lt_succ_iff]

theorem readLength?_eq_some_iff (cs : List Char) (n : Nat) :
    readLength? cs = some n ↔ LengthText cs n := by
  by_cases signed : ∃ rest, cs = '+' :: rest
  · obtain ⟨rest, rfl⟩ := signed
    rw [readLength?_of_digits (.inl rfl)]
    constructor
    · rintro ⟨numeral, le⟩
      exact ⟨⟨rest, .inr rfl, numeral⟩, le⟩
    · rintro ⟨⟨ds, rfl | heq, numeral⟩, le⟩
      · have hplus : '+' ∉ '+' :: rest := numeral.not_mem (by omega) rfl
        exact absurd List.mem_cons_self hplus
      · cases heq
        exact ⟨numeral, le⟩
  · rw [not_exists] at signed
    rw [readLength?_of_digits (.inr ⟨rfl, signed⟩)]
    constructor
    · rintro ⟨numeral, le⟩
      exact ⟨⟨cs, .inl rfl, numeral⟩, le⟩
    · rintro ⟨⟨ds, rfl | heq, numeral⟩, le⟩
      · exact ⟨numeral, le⟩
      · exact absurd heq (signed ds)

/-- What a text stands for is what is read from it. -/
theorem Denotes.parse {text : String} {addr : IpAddr} {n : Nat} (denotes : Denotes text addr n) :
    parse text = create addr n := by
  unfold Network.parse
  cases denotes with
  | host whole trimmed spelling =>
      rw [splitFirst_eq_none_iff.mpr whole]
      simp only [trim_eq_iff.mpr trimmed, IpAddr.read?_eq_some_iff.mpr spelling]
      rw [create, dif_pos (Nat.le_refl _)]
      rfl
  | network slash first trimmedLeft spelling trimmedRight length =>
      rw [splitFirst_eq_some_iff.mpr ⟨slash, first⟩]
      simp only [trim_eq_iff.mpr trimmedLeft, IpAddr.read?_eq_some_iff.mpr spelling,
        trim_eq_iff.mpr trimmedRight, (readLength?_eq_some_iff _ _).mpr length]

/-- A text that stands for nothing is refused as it is. -/
theorem parse_of_nothing {text : String} (nothing : ∀ addr n, ¬ Denotes text addr n) :
    parse text = .error (.badPattern text) := by
  unfold Network.parse
  split
  · rename_i before after hsplit
    obtain ⟨slash, first⟩ := splitFirst_eq_some_iff.mp hsplit
    split
    · rename_i addr n haddr hlength
      exact absurd (.network slash first (trim_trimmed before)
        (IpAddr.read?_eq_some_iff.mp haddr) (trim_trimmed after)
        ((readLength?_eq_some_iff _ _).mp hlength)) (nothing addr n)
    · rfl
  · rename_i hsplit
    split
    · rename_i addr haddr
      exact absurd (.host (splitFirst_eq_none_iff.mp hsplit) (trim_trimmed _)
        (IpAddr.read?_eq_some_iff.mp haddr)) (nothing addr addr.width)
    · rfl

/-! ## What comes of it -/

theorem create_eq_ok_iff {addr : IpAddr} {n : Nat} {net : Network} :
    create addr n = .ok net ↔ addr = net.addr ∧ n = net.length := by
  unfold create
  constructor
  · intro made
    split at made <;> cases made
    exact ⟨rfl, rfl⟩
  · rintro ⟨rfl, rfl⟩
    exact dif_pos net.length_le

theorem create_eq_tooLong_iff {addr addr' : IpAddr} {n n' : Nat} :
    create addr n = .error (.tooLong addr' n') ↔
      (addr = addr' ∧ n = n') ∧ addr.width < n := by
  unfold create
  constructor
  · intro refused
    split at refused <;> cases refused
    exact ⟨⟨rfl, rfl⟩, by omega⟩
  · rintro ⟨⟨rfl, rfl⟩, long⟩
    exact dif_neg (by omega)

theorem create_ne_badPattern (addr : IpAddr) (n : Nat) (pattern : String) :
    create addr n ≠ .error (.badPattern pattern) := by
  unfold create
  split <;> simp

/-- A text stands for one address and number of bits at most. -/
theorem Denotes.unique {text : String} {addr addr' : IpAddr} {n n' : Nat}
    (denotes : Denotes text addr n) (denotes' : Denotes text addr' n') :
    addr = addr' ∧ n = n' := by
  have hparse := denotes.parse.symm.trans denotes'.parse
  by_cases hfits : n' ≤ addr'.width
  · have hmade : create addr' n' = .ok ⟨addr', n', hfits⟩ := dif_pos hfits
    rw [hmade] at hparse
    exact create_eq_ok_iff.mp hparse
  · have hrefused : create addr' n' = .error (.tooLong addr' n') := dif_neg hfits
    rw [hrefused] at hparse
    exact (create_eq_tooLong_iff.mp hparse).1

/-- **The reader of networks accepts exactly its grammar.** Every text stands for one address and
number of bits or for none. In the first case it is read as the network with just these if the
address has so many bits, and is refused with both if it has not. In the second case it is refused
with the text itself, blanks included. -/
theorem parse_accepts_its_grammar (text : String) :
    (∀ addr n, (∃ net, parse text = .ok net ∧ net.addr = addr ∧ net.length = n) ↔
      Denotes text addr n ∧ n ≤ addr.width) ∧
    (∀ addr n, parse text = .error (.tooLong addr n) ↔
      Denotes text addr n ∧ addr.width < n) ∧
    ∀ pattern, parse text = .error (.badPattern pattern) ↔
      pattern = text ∧ ∀ addr n, ¬ Denotes text addr n := by
  by_cases hsome : ∃ addr n, Denotes text addr n
  · obtain ⟨addr, n, denotes⟩ := hsome
    have hdenotes : ∀ {addr' n'}, Denotes text addr' n' → addr = addr' ∧ n = n' := denotes.unique
    rw [denotes.parse]
    refine ⟨?_, ?_, ?_⟩
    · intro addr' n'
      constructor
      · rintro ⟨net, made, rfl, rfl⟩
        obtain ⟨rfl, rfl⟩ := create_eq_ok_iff.mp made
        exact ⟨denotes, net.length_le⟩
      · rintro ⟨denotes', fits⟩
        obtain ⟨rfl, rfl⟩ := hdenotes denotes'
        exact ⟨⟨addr, n, fits⟩, create_eq_ok_iff.mpr ⟨rfl, rfl⟩, rfl, rfl⟩
    · intro addr' n'
      rw [create_eq_tooLong_iff]
      constructor
      · rintro ⟨⟨rfl, rfl⟩, long⟩
        exact ⟨denotes, long⟩
      · rintro ⟨denotes', long⟩
        obtain ⟨rfl, rfl⟩ := hdenotes denotes'
        exact ⟨⟨rfl, rfl⟩, long⟩
    · intro pattern
      constructor
      · intro refused
        exact absurd refused (create_ne_badPattern addr n pattern)
      · rintro ⟨-, nothing⟩
        exact absurd denotes (nothing addr n)
  · have nothing : ∀ addr n, ¬ Denotes text addr n := by
      intro addr n denotes
      exact hsome ⟨addr, n, denotes⟩
    rw [parse_of_nothing nothing]
    simp [nothing, eq_comm]

/-- A number of bits beyond 255 stands for nothing, one beyond the address for too many. -/
example : parse "10.0.0.1/ +0033" = .error (.tooLong (.v4 0x0a000001) 33) ∧
    parse " 10.0.0.1/256" = .error (.badPattern " 10.0.0.1/256") ∧
    parse "::FFFF:1.2.3.4" = .ok (host (.v6 0xffff01020304)) := by decide +kernel

end Network

end Gatehouse
