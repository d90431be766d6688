import Mathlib
import Gatehouse.Address.Printer
import Gatehouse.Address.Reader
import Gatehouse.Proofs.Text.Digits
import Gatehouse.Proofs.Text.Fields
/-!
# The grammar of addresses

Which texts stand for which address, said without the reader (`IpAddr.Spelling`): four decimal
octets without zeros in front, or eight groups of up to four hexadecimal digits in either case, of
which one run of one or more zeros may be left out and the last two may be written as a version 4
address. The reader reads exactly these texts, and as that address (`IpAddr.read?_eq_some_iff`).
-/

namespace Gatehouse

open Gatehouse.Text

namespace IpAddr

/-! ## The grammar -/

/-- An octet: a decimal numeral up to 255, with a zero in front only if it is nothing else. -/
structure Octet (cs : List Char) (n : Nat) : Prop where
  numeral : Numeral 10 cs n
  le : n ≤ 255
  plain : cs.head? = some '0' → cs = ['0']

/-- A group: one to four hexadecimal digits. -/
structure Group (cs : List Char) (n : Nat) : Prop where
  numeral : Numeral 16 cs n
  short : cs.length ≤ 4

/-- A version 4 address in text: its four octets with full stops between them. -/
def Dotted (bits : BitVec 32) (cs : List Char) : Prop :=
  ∃ pieces, List.Forall₂ Octet pieces (octets bits) ∧ cs = join ['.'] pieces

/-- Pieces that stand for the last groups of an address: a group each, but the last piece may be a
version 4 address, which stands for two. -/
inductive Ending : List (List Char) → List Nat → Prop
  | groups {pieces : List (List Char)} {gs : List Nat} (each : List.Forall₂ Group pieces gs) :
      Ending pieces gs
  | dotted {pieces : List (List Char)} {gs : List Nat} {last : List Char} {inner : BitVec 32}
      (each : List.Forall₂ Group pieces gs) (tail : Dotted inner last) :
      Ending (pieces ++ [last]) (gs ++ [inner.toNat / 65536, inner.toNat % 65536])

/-- The texts that stand for an address. -/
inductive Spelling : IpAddr → List Char → Prop
  | v4 {bits : BitVec 32} {cs : List Char} (dotted : Dotted bits cs) : Spelling (.v4 bits) cs
  /-- all eight groups -/
  | full {bits : BitVec 128} {pieces : List (List Char)}
      (ending : Ending pieces (groups bits)) : Spelling (.v6 bits) (join [':'] pieces)
  /-- the groups around a run of one or more zeros, for which a double colon stands -/
  | shortened {bits : BitVec 128} {left right : List (List Char)} {ls rs : List Nat}
      {length : Nat} (pos : 0 < length)
      (around : groups bits = ls ++ List.replicate length 0 ++ rs)
      (front : List.Forall₂ Group left ls) (ending : Ending right rs) :
      Spelling (.v6 bits) (join [':'] left ++ [':', ':'] ++ join [':'] right)

/-! ## Octets and groups as numbers -/

/-- Octets make up the address that they are of. -/
theorem ofNat_octets (bits : BitVec 32) :
    ∃ a b c d, octets bits = [a, b, c, d] ∧ (∀ n ∈ octets bits, n < 256) ∧
      BitVec.ofNat 32 (((a * 256 + b) * 256 + c) * 256 + d) = bits := by
  have hlt := bits.isLt
  refine ⟨_, _, _, _, rfl, ?_, ?_⟩
  · simp only [octets, List.mem_map]
    rintro n ⟨shift, -, rfl⟩
    exact Nat.mod_lt _ (by omega)
  · apply BitVec.eq_of_toNat_eq
    rw [BitVec.toNat_ofNat]
    simp only [BitVec.toNat_ushiftRight, Nat.shiftRight_eq_div_pow]
    omega

/-- An address has the octets that it is made of. -/
theorem octets_ofNat {a b c d : Nat} (ha : a < 256) (hb : b < 256) (hc : c < 256)
    (hd : d < 256) :
    octets (BitVec.ofNat 32 (((a * 256 + b) * 256 + c) * 256 + d)) = [a, b, c, d] := by
  simp only [octets, List.map_cons, List.map_nil, BitVec.toNat_ushiftRight, BitVec.toNat_ofNat,
    Nat.shiftRight_eq_div_pow, List.cons.injEq, and_true]
  omega

theorem length_groups (bits : BitVec 128) : (groups bits).length = 8 := rfl

theorem groups_lt (bits : BitVec 128) : ∀ g ∈ groups bits, g < 65536 := by
  intro g mem
  unfold groups at mem
  obtain ⟨shift, -, rfl⟩ := List.mem_map.mp mem
  exact Nat.mod_lt _ (by omega)

/-- Groups make up the address that they are of. -/
theorem ofGroups_groups (bits : BitVec 128) : ofGroups (groups bits) = bits := by
  have hlt := bits.isLt
  apply BitVec.eq_of_toNat_eq
  unfold ofGroups groups
  rw [BitVec.toNat_ofNat]
  simp only [List.map_cons, List.map_nil, List.foldl_cons, List.foldl_nil,
    BitVec.toNat_ushiftRight, Nat.shiftRight_eq_div_pow]
  omega

/-- An address has the groups that it is made of. -/
theorem groups_ofGroups {gs : List Nat} (eight : gs.length = 8) (lt : ∀ g ∈ gs, g < 65536) :
    groups (ofGroups gs) = gs := by
  obtain ⟨a, b, c, d, e, f, g, h, rfl⟩ : ∃ a b c d e f g h, gs = [a, b, c, d, e, f, g, h] := by
    rcases gs with _ | ⟨a, _ | ⟨b, _ | ⟨c, _ | ⟨d, _ | ⟨e, _ | ⟨f, _ | ⟨g, _ | ⟨h, _ | _⟩⟩⟩⟩⟩⟩⟩⟩ <;>
      simp at eight ⊢
  simp only [List.forall_mem_cons] at lt
  unfold groups ofGroups
  simp only [List.map_cons, List.map_nil, List.foldl_cons, List.foldl_nil,
    BitVec.toNat_ushiftRight, BitVec.toNat_ofNat, Nat.shiftRight_eq_div_pow, List.cons.injEq,
    and_true]
  omega

/-! ## Version 4 -/

theorem readOctet?_eq_some_iff (cs : List Char) (n : Nat) :
    readOctet? cs = some n ↔ Octet cs n := by
  have hnumeral := natural?_eq_some_iff (show 10 ≤ 16 by omega) cs
  unfold readOctet?
  constructor
  · intro read
    split at read
    · cases read
    · rename_i hform
      cases hn : natural? 10 cs with
      | none => simp [hn] at read
      | some m =>
          simp only [hn, Option.ite_none_right_eq_some, Option.some.injEq] at read
          obtain ⟨hlt, rfl⟩ := read
          refine ⟨(hnumeral m).mp hn, by omega, ?_⟩
          intro head
          have hlength : ¬ 1 < cs.length := fun long => hform (.inr ⟨long, head⟩)
          obtain ⟨more, rfl⟩ := List.head?_eq_some_iff.mp head
          have hmore : more.length = 0 := by
            rw [List.length_cons] at hlength
            omega
          rw [List.eq_nil_of_length_eq_zero hmore]
  · rintro ⟨numeral, le, plain⟩
    have hform : ¬ (3 < cs.length ∨ (1 < cs.length ∧ cs.head? = some '0')) := by
      rintro (long | ⟨long, head⟩)
      · -- Four digits without a zero in front make at least a thousand.
        have hhead : cs.head? ≠ some '0' := by
          intro head
          rw [plain head] at long
          simp at long
        have hpow : 10 ^ 3 ≤ 10 ^ (cs.length - 1) := Nat.pow_le_pow_right (by omega) (by omega)
        have := numeral.pow_le hhead
        omega
      · rw [plain head] at long
        simp at long
    rw [if_neg hform, (hnumeral n).mpr numeral]
    simp only
    rw [if_pos (by omega)]

theorem Octet.solid {cs : List Char} {n : Nat} (octet : Octet cs n) {c : Char}
    (other : digitValue? 10 c = none) : c ∉ cs :=
  octet.numeral.not_mem (by omega) other

theorem readV4?_eq_some_iff (cs : List Char) (bits : BitVec 32) :
    readV4? cs = some bits ↔ Dotted bits cs := by
  unfold readV4? Dotted
  constructor
  · intro read
    split at read
    · rename_i a b c d hfour
      have heach : List.Forall₂ Octet (fields '.' cs) [a, b, c, d] := by
        have hmap : List.Forall₂ (fun o n => o = some n) ((fields '.' cs).map readOctet?)
            [a, b, c, d] := by
          rw [hfour]
          simp
        rw [List.forall₂_map_left_iff] at hmap
        exact hmap.imp fun piece n h => (readOctet?_eq_some_iff piece n).mp h
      have hle := forall_right heach fun piece n octet => Nat.lt_succ_of_le octet.le
      simp only [List.forall_mem_cons] at hle
      obtain ⟨ha, hb, hc, hd, -⟩ := hle
      cases read
      exact ⟨fields '.' cs, by rwa [octets_ofNat ha hb hc hd], (join_fields '.' cs).symm⟩
    · cases read
  · rintro ⟨pieces, each, rfl⟩
    obtain ⟨a, b, c, d, hoctets, -, hbits⟩ := ofNat_octets bits
    have hplain : ∀ piece ∈ pieces, '.' ∉ piece :=
      forall_left each fun _ _ octet => octet.solid rfl
    have hread : pieces.map readOctet? = [some a, some b, some c, some d] := by
      rw [hoctets] at each
      have hmap : List.Forall₂ (· = ·) (pieces.map readOctet?) ([a, b, c, d].map some) := by
        rw [List.forall₂_map_left_iff, List.forall₂_map_right_iff]
        exact each.imp fun piece n octet => (readOctet?_eq_some_iff piece n).mpr octet
      rwa [List.forall₂_eq_eq_eq] at hmap
    have hne : pieces ≠ [] := by
      rintro rfl
      cases hread
    rw [fields_join hne hplain, hread]
    exact congrArg some hbits

/-- Without full stops there is no version 4 address. -/
theorem Dotted.stop_mem {bits : BitVec 32} {cs : List Char} (dotted : Dotted bits cs) :
    '.' ∈ cs := by
  by_contra plain
  have hread := (readV4?_eq_some_iff cs bits).mpr dotted
  unfold readV4? at hread
  rw [fields_plain plain] at hread
  split at hread
  · rename_i h
    simp at h
  · cases hread

/-- A version 4 address consists of digits and full stops. -/
theorem Dotted.solid {bits : BitVec 32} {cs : List Char} (dotted : Dotted bits cs) {c : Char}
    (other : digitValue? 10 c = none) (ne : c ≠ '.') : c ∉ cs := by
  obtain ⟨pieces, each, rfl⟩ := dotted
  intro mem
  rcases mem_join mem with hstop | ⟨piece, hpiece, hc⟩
  · exact ne hstop
  · exact forall_left each (fun _ _ octet => octet.solid other) piece hpiece hc

/-! ## Groups -/

theorem readGroup?_eq_some_iff (cs : List Char) (g : Nat) :
    readGroup? cs = some g ↔ Group cs g := by
  unfold readGroup?
  rw [Option.ite_none_left_eq_some, natural?_eq_some_iff (by omega)]
  constructor
  · rintro ⟨short, numeral⟩
    exact ⟨numeral, by omega⟩
  · rintro ⟨numeral, short⟩
    exact ⟨by omega, numeral⟩

theorem readGroups?_eq_some_iff (pieces : List (List Char)) (gs : List Nat) :
    readGroups? pieces = some gs ↔ List.Forall₂ Group pieces gs := by
  unfold readGroups?
  induction pieces generalizing gs with
  | nil => simp [eq_comm]
  | cons piece more ih =>
      rw [List.mapM_cons, List.forall₂_cons_left_iff]
      simp only [Option.bind_eq_bind, Option.bind_eq_some_iff, Option.pure_def,
        Option.some.injEq, readGroup?_eq_some_iff, ih]
      constructor
      · rintro ⟨g, hg, gs', hgs, rfl⟩
        exact ⟨g, gs', hg, hgs, rfl⟩
      · rintro ⟨g, gs', hg, hgs, rfl⟩
        exact ⟨g, hg, gs', hgs, rfl⟩

theorem Group.solid {cs : List Char} {g : Nat} (group : Group cs g) {c : Char}
    (other : digitValue? 16 c = none) : c ∉ cs :=
  group.numeral.not_mem (by omega) other

theorem Group.lt {cs : List Char} {g : Nat} (group : Group cs g) : g < 65536 := by
  have hlt := group.numeral.lt_pow (by omega)
  have hpow : 16 ^ cs.length ≤ 16 ^ 4 := Nat.pow_le_pow_right (by omega) group.short
  omega

theorem readEnd?_cons {piece : List Char} {more : List (List Char)} (ne : more ≠ []) :
    readEnd? (piece :: more) =
      (readGroup? piece).bind fun g => (readEnd? more).map fun gs => g :: gs := by
  obtain ⟨next, rest, rfl⟩ := List.exists_cons_of_ne_nil ne
  rw [readEnd?]
  · cases readGroup? piece with
    | none => rfl
    | some g => cases readEnd? (next :: rest) <;> rfl
  · exact ne

theorem readEnd?_singleton (piece : List Char) :
    readEnd? [piece] =
      match readV4? piece with
      | some bits => some [bits.toNat / 65536, bits.toNat % 65536]
      | none => (readGroup? piece).map ([·]) := rfl

theorem ending_of_readEnd? {pieces : List (List Char)} {gs : List Nat}
    (read : readEnd? pieces = some gs) : Ending pieces gs := by
  induction pieces generalizing gs with
  | nil =>
      cases read
      exact .groups .nil
  | cons piece more ih =>
      by_cases hmore : more = []
      · subst hmore
        rw [readEnd?_singleton] at read
        cases hv4 : readV4? piece with
        | some inner =>
            simp only [hv4, Option.some.injEq] at read
            subst read
            exact .dotted .nil ((readV4?_eq_some_iff piece inner).mp hv4)
        | none =>
            simp only [hv4, Option.map_eq_some_iff] at read
            obtain ⟨g, hg, rfl⟩ := read
            exact .groups (.cons ((readGroup?_eq_some_iff piece g).mp hg) .nil)
      · rw [readEnd?_cons hmore] at read
        simp only [Option.bind_eq_some_iff, Option.map_eq_some_iff] at read
        obtain ⟨g, hg, gs', hgs, rfl⟩ := read
        rw [readGroup?_eq_some_iff] at hg
        cases ih hgs with
        | groups each => exact .groups (.cons hg each)
        | dotted each tail => exact .dotted (.cons hg each) tail

theorem Ending.readEnd? {pieces : List (List Char)} {gs : List Nat} (ending : Ending pieces gs) :
    readEnd? pieces = some gs := by
  cases ending with
  | groups each =>
      induction each with
      | nil => rfl
      | @cons piece g more gs hg each ih =>
          have hread := (readGroup?_eq_some_iff piece g).mpr hg
          by_cases hmore : more = []
          · subst hmore
            cases each
            have hv4 : readV4? piece = none := by
              rw [Option.eq_none_iff_forall_ne_some]
              intro inner h
              exact hg.solid rfl ((readV4?_eq_some_iff piece inner).mp h).stop_mem
            rw [readEnd?_singleton, hv4, hread]
            rfl
          · rw [readEnd?_cons hmore, hread, ih]
            rfl
  | @dotted pieces gs last inner each tail =>
      induction each with
      | nil =>
          rw [List.nil_append, readEnd?_singleton, (readV4?_eq_some_iff last inner).mpr tail]
          rfl
      | @cons piece g more gs hg each ih =>
          rw [List.cons_append, readEnd?_cons (by simp), ih,
            (readGroup?_eq_some_iff piece g).mpr hg]
          rfl

/-! ## Version 6 -/

/-- A piece between colons: not empty, and without a colon. -/
def Piece (cs : List Char) : Prop := ':' ∉ cs ∧ cs ≠ []

theorem Group.piece {cs : List Char} {g : Nat} (group : Group cs g) : Piece cs :=
  ⟨group.solid rfl, group.numeral.1⟩

theorem Dotted.piece {bits : BitVec 32} {cs : List Char} (dotted : Dotted bits cs) :
    Piece cs :=
  ⟨dotted.solid rfl (by simp), List.ne_nil_of_mem dotted.stop_mem⟩

theorem Ending.piece {pieces : List (List Char)} {gs : List Nat} (ending : Ending pieces gs) :
    ∀ piece ∈ pieces, Piece piece := by
  cases ending with
  | groups each => exact forall_left each fun _ _ group => group.piece
  | dotted each tail =>
      rw [List.forall_mem_append, List.forall_mem_singleton]
      exact ⟨forall_left each fun _ _ group => group.piece, tail.piece⟩

theorem Ending.lt {pieces : List (List Char)} {gs : List Nat} (ending : Ending pieces gs) :
    ∀ g ∈ gs, g < 65536 := by
  cases ending with
  | groups each => exact forall_right each fun _ _ group => group.lt
  | @dotted _ _ _ inner each tail =>
      have hlt := inner.isLt
      simp only [List.forall_mem_append, List.forall_mem_cons]
      refine ⟨forall_right each fun _ _ group => group.lt, ?_, ?_, by simp⟩
      · omega
      · omega

/-- Only the last piece can stand for two groups. -/
theorem Ending.length_le {pieces : List (List Char)} {gs : List Nat}
    (ending : Ending pieces gs) : gs.length ≤ pieces.length + 1 := by
  cases ending with
  | groups each => rw [each.length_eq]; omega
  | dotted each tail =>
      simp only [List.length_append, List.length_cons, List.length_nil, each.length_eq]
      omega

/-- What is left of the double colon, or right of it, comes apart into its pieces. -/
theorem sidePieces_join {pieces : List (List Char)} (each : ∀ piece ∈ pieces, Piece piece) :
    sidePieces (join [':'] pieces) = pieces := by
  unfold sidePieces
  cases pieces with
  | nil => rfl
  | cons piece more =>
      have hne : join [':'] (piece :: more) ≠ [] := by
        have hpiece := (each piece List.mem_cons_self).2
        by_cases hmore : more = []
        · subst hmore
          exact hpiece
        · rw [join_cons_of_ne_nil _ _ hmore]
          simp
      rw [if_neg (by simpa using hne), fields_join (by simp) fun p mem => (each p mem).1]

theorem join_sidePieces (cs : List Char) : join [':'] (sidePieces cs) = cs := by
  unfold sidePieces
  cases cs with
  | nil => rfl
  | cons c cs => exact join_fields ':' (c :: cs)

theorem spelling_of_readV6? {cs : List Char} {bits : BitVec 128}
    (read : readV6? cs = some bits) : Spelling (.v6 bits) cs := by
  unfold readV6? at read
  cases hsplit : splitDoubled ':' cs with
  | some sides =>
      obtain ⟨left, right⟩ := sides
      rw [hsplit] at read
      simp only at read
      split at read
      · rename_i ls rs hls hrs
        simp only [Option.ite_none_right_eq_some, Option.some.injEq] at read
        obtain ⟨hseven, rfl⟩ := read
        have hfront := (readGroups?_eq_some_iff _ _).mp hls
        have hending := ending_of_readEnd? hrs
        set gs := ls ++ List.replicate (8 - (ls.length + rs.length)) 0 ++ rs with hgs
        have height : gs.length = 8 := by
          simp only [hgs, List.length_append, List.length_replicate]
          omega
        have hlt : ∀ g ∈ gs, g < 65536 := by
          simp only [hgs, List.forall_mem_append]
          refine ⟨⟨forall_right hfront fun _ _ group => group.lt, ?_⟩, hending.lt⟩
          intro g mem
          rw [List.eq_of_mem_replicate mem]
          omega
        have htext : cs = join [':'] (sidePieces left) ++ [':', ':'] ++
            join [':'] (sidePieces right) := by
          rw [join_sidePieces, join_sidePieces, splitDoubled_eq_some hsplit, List.append_assoc]
          rfl
        rw [htext]
        exact .shortened (by omega) (groups_ofGroups height hlt) hfront hending
      · cases read
  | none =>
      rw [hsplit] at read
      simp only at read
      split at read
      · rename_i gs hgs
        simp only [Option.ite_none_right_eq_some, Option.some.injEq] at read
        obtain ⟨height, rfl⟩ := read
        have hending := ending_of_readEnd? hgs
        rw [← groups_ofGroups height hending.lt] at hending
        rw [← join_fields ':' cs]
        exact .full hending
      · cases read

/-- All eight groups read as the address. -/
theorem readV6?_full {bits : BitVec 128} {pieces : List (List Char)}
    (ending : Ending pieces (groups bits)) : readV6? (join [':'] pieces) = some bits := by
  have hlength := ending.length_le
  rw [length_groups] at hlength
  have hne : pieces ≠ [] := by
    rintro rfl
    simp at hlength
  have hsplit : splitDoubled ':' (join [':'] pieces) = none :=
    splitDoubled_join (fun p mem => (ending.piece p mem).1) fun p mem => (ending.piece p mem).2
  unfold readV6?
  rw [hsplit, fields_join hne fun p mem => (ending.piece p mem).1]
  simp only [ending.readEnd?, length_groups, if_true, ofGroups_groups]

/-- The groups around a double colon read as the address with zeros in its place. -/
theorem readV6?_shortened {bits : BitVec 128} {left right : List (List Char)} {ls rs : List Nat}
    {length : Nat} (pos : 0 < length)
    (around : groups bits = ls ++ List.replicate length 0 ++ rs)
    (front : List.Forall₂ Group left ls) (ending : Ending right rs) :
    readV6? (join [':'] left ++ [':', ':'] ++ join [':'] right) = some bits := by
  have hfront := forall_left front fun _ _ group => group.piece
  have hsplit : splitDoubled ':' (join [':'] left ++ [':', ':'] ++ join [':'] right) =
      some (join [':'] left, join [':'] right) := by
    rw [List.append_assoc]
    exact splitDoubled_join_doubled (fun p mem => (hfront p mem).1)
      (fun p mem => (hfront p mem).2) _
  have height := congrArg List.length around
  simp only [length_groups, List.length_append, List.length_replicate] at height
  have hlength : 8 - (ls.length + rs.length) = length := by omega
  unfold readV6?
  rw [hsplit]
  simp only [sidePieces_join hfront, sidePieces_join ending.piece,
    (readGroups?_eq_some_iff left ls).mpr front, ending.readEnd?, hlength]
  rw [if_pos (by omega), ← around, ofGroups_groups]

/-- A text of all eight groups has a colon. -/
theorem Ending.colon_mem {bits : BitVec 128} {pieces : List (List Char)}
    (ending : Ending pieces (IpAddr.groups bits)) : ':' ∈ join [':'] pieces := by
  have hlength := ending.length_le
  rw [length_groups] at hlength
  obtain ⟨first, next, more, rfl⟩ : ∃ first next more, pieces = first :: next :: more := by
    rcases pieces with _ | ⟨first, _ | ⟨next, more⟩⟩
    · simp at hlength
    · simp at hlength
    · exact ⟨first, next, more, rfl⟩
  simp [join]

/-! ## Both versions -/

/-- **The reader accepts exactly the spellings of addresses**, each as the address that it
stands for. -/
theorem read?_eq_some_iff {a : IpAddr} {cs : List Char} : read? cs = some a ↔ Spelling a cs := by
  unfold read?
  constructor
  · intro read
    cases hv4 : readV4? cs with
    | some bits =>
        simp only [hv4, Option.some.injEq] at read
        subst read
        exact .v4 ((readV4?_eq_some_iff cs bits).mp hv4)
    | none =>
        simp only [hv4, Option.map_eq_some_iff] at read
        obtain ⟨bits, hbits, rfl⟩ := read
        exact spelling_of_readV6? hbits
  · intro spelling
    -- A text with a colon is tried as one of version 6, since it is none of version 4.
    have hv6 : ∀ {text : List Char} {bits : BitVec 128}, ':' ∈ text →
        readV6? text = some bits →
        (match readV4? text with
          | some bits => some (IpAddr.v4 bits)
          | none => (readV6? text).map .v6) = some (.v6 bits) := by
      intro text bits colon read
      have hnone : readV4? text = none := by
        rw [Option.eq_none_iff_forall_ne_some]
        intro inner h
        exact ((readV4?_eq_some_iff text inner).mp h).piece.1 colon
      rw [hnone, read]
      rfl
    cases spelling with
    | v4 dotted => simp only [(readV4?_eq_some_iff _ _).mpr dotted]
    | full ending => exact hv6 ending.colon_mem (readV6?_full ending)
    | shortened pos around front ending =>
        exact hv6 (by simp) (readV6?_shortened pos around front ending)

end IpAddr

end Gatehouse
