import Mathlib
import Gatehouse.Config.Notation
import Gatehouse.Proofs.Access.NetworkGrammar
import Gatehouse.Proofs.Address.RoundTrip
/-!
# The text of a network

A network is written as its address, a slash and the number of its leading bits. Since neither
part has a slash or blanks, the text is in the grammar of networks (`Network.Written.denotes`) and
reads back as the network (`Network.parse_render`), bits after the leading ones included. So the
text stands for the network wherever it goes: in a list of texts, too.
-/

namespace Gatehouse

open Gatehouse.Text

namespace Network

/-- The text of a network. -/
def Written (net : Network) (text : String) : Prop :=
  ∃ addr, net.addr.Written addr ∧ text.toList = addr ++ '/' :: digits 10 net.length

theorem toList_render (net : Network) :
    net.render.toList = net.addr.renderChars ++ '/' :: digits 10 net.length :=
  String.toList_ofList

theorem written_iff {net : Network} {text : String} : net.Written text ↔ text = net.render := by
  constructor
  · rintro ⟨addr, haddr, htext⟩
    rw [IpAddr.written_iff] at haddr
    apply String.toList_inj.mp
    rw [htext, haddr, toList_render]
  · rintro rfl
    exact ⟨net.addr.renderChars, IpAddr.written_iff.mpr rfl, net.toList_render⟩

/-! ## Reading -/

theorem trimmed_decimal (n : Nat) : Trimmed (digits 10 n) (digits 10 n) := by
  apply trimmed_self
  intro c mem
  have hten : 1 < 10 := by omega
  obtain ⟨d, hlt, rfl⟩ := exists_digitChar_of_mem hten mem
  have hknown : IpAddr.IsCharacter (Nat.digitChar d) := .inr (.inr ⟨d, by omega, rfl⟩)
  exact hknown.solid.2

theorem lengthText_digits {n : Nat} (le : n ≤ 255) : LengthText (digits 10 n) n :=
  ⟨⟨digits 10 n, .inl rfl, IpAddr.numeral_digits (by omega) (by omega) n⟩, le⟩

theorem width_le (addr : IpAddr) : addr.width ≤ 255 := by
  cases addr with
  | v4 bits =>
      show 32 ≤ 255
      omega
  | v6 bits =>
      show 128 ≤ 255
      omega

theorem create_eq (net : Network) : create net.addr net.length = .ok net :=
  create_eq_ok_iff.mpr ⟨rfl, rfl⟩

/-- The text of a network stands for its address and number of bits. -/
theorem Written.denotes {net : Network} {text : String} (written : net.Written text) :
    Denotes text net.addr net.length := by
  obtain ⟨addr, haddr, htext⟩ := written
  have hsolid : ∀ c ∈ addr, c ≠ '/' ∧ isBlank c = false := by
    intro c mem
    exact (haddr.isCharacter c mem).solid
  have hslash : '/' ∉ addr := by
    intro slash
    exact (hsolid '/' slash).1 rfl
  have htrimmed : Trimmed addr addr := by
    apply trimmed_self
    intro c mem
    exact (hsolid c mem).2
  exact .network htext hslash htrimmed haddr.spelling (trimmed_decimal net.length)
    (lengthText_digits (net.length_le.trans (width_le net.addr)))

/-- A network reads back from its text. -/
theorem Written.parse {net : Network} {text : String} (written : net.Written text) :
    parse text = .ok net :=
  written.denotes.parse.trans net.create_eq

theorem parse_render (net : Network) : parse net.render = .ok net :=
  (written_iff.mpr rfl).parse

end Network

/-! ## Lists of texts -/

namespace Config

open Gatehouse.Yaml

theorem readNetwork_writeNetwork (quoted : String → Bool) (spot : Spot) (net : Network) :
    readNetwork spot (writeNetwork quoted net) = .ok net := by
  have htext : readString spot (writeNetwork quoted net) = .ok net.render := rfl
  unfold readNetwork
  rw [htext]
  simp only [bind, Except.bind, net.parse_render]
  rfl

theorem readNetworkItems_writeNetwork (quoted : String → Bool) (spot : Spot) (index : Nat)
    (nets : List Network) :
    readNetworkItems spot index (nets.map (writeNetwork quoted)) = .ok nets := by
  induction nets generalizing index with
  | nil => rfl
  | cons net nets ih =>
      rw [List.map_cons, readNetworkItems, readNetwork_writeNetwork, ih]
      rfl

theorem readNetworks_writeNetworks (quoted : String → Bool) (spot : Spot)
    (nets : List Network) : readNetworks spot (writeNetworks quoted nets) = .ok nets :=
  readNetworkItems_writeNetwork quoted spot 0 nets

end Config

namespace Network

/-- **The text of a network stands for the network.** Every network can be made from its address
and number of bits and has one text, which reads back as the network. So does what is made from an
address and any number of bits, if that is a network, or from an address alone. What is read from
any text therefore reads the same after being written anew, different networks have different texts,
and a list of networks reads back from the list of their texts. -/
theorem texts_stand_for_networks :
    (∀ (net : Network) text, net.Written text ↔ text = net.render) ∧
    (∀ net : Network, create net.addr net.length = .ok net ∧ parse net.render = .ok net) ∧
    (∀ addr length, (create addr length >>= fun net => parse net.render) = create addr length) ∧
    (∀ addr, parse (host addr).render = .ok (host addr)) ∧
    (∀ text, (parse text >>= fun net => parse net.render) = parse text) ∧
    (∀ net net' : Network, net.render = net'.render ↔ net = net') ∧
    ∀ quoted spot nets,
      Config.readNetworks spot (Config.writeNetworks quoted nets) = .ok nets := by
  have hagain : ∀ result : Except NetworkError Network,
      (result >>= fun net => parse net.render) = result := by
    intro result
    cases result with
    | ok net => exact net.parse_render
    | error e => rfl
  refine ⟨?_, fun net => ⟨net.create_eq, net.parse_render⟩, ?_, ?_, ?_, ?_, ?_⟩
  · intro net text
    exact written_iff
  · intro addr length
    exact hagain (create addr length)
  · intro addr
    exact (host addr).parse_render
  · intro text
    exact hagain (parse text)
  · intro net net'
    constructor
    · intro same
      have hread := net.parse_render
      rw [same, net'.parse_render] at hread
      exact (Except.ok.inj hread).symm
    · rintro rfl
      rfl
  · intro quoted spot nets
    exact Config.readNetworks_writeNetworks quoted spot nets

/-- What is read need not be written as a network is. -/
example : (parse " FF01:0:0::0.0.0.0 / +032 ").toOption.map render = some "ff01::/32" := by rfl

end Network

end Gatehouse
