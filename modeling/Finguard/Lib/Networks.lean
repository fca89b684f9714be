import Mathlib

/-! Networks of addresses: those that begin with the same bits. -/

namespace Networks

variable {w : ℕ}

structure Network (w : ℕ) where
  base : BitVec w
  length : ℕ

/-- The first `n` bits. -/
def leading (n : ℕ) (ip : BitVec w) : BitVec w := ip >>> (w - n)

def Network.contains (net : Network w) (ip : BitVec w) : Bool :=
  leading net.length ip == leading net.length net.base

/-- A network inside another. -/
def Network.within (inner outer : Network w) : Bool :=
  decide (outer.length ≤ inner.length) && outer.contains inner.base

theorem leading_of_le {m n : ℕ} (hmn : m ≤ n) {a b : BitVec w} (h : leading n a = leading n b) :
    leading m a = leading m b := by
  have hsplit : w - m = (w - n) + ((w - m) - (w - n)) := by omega
  have h' : a >>> (w - n) = b >>> (w - n) := h
  rw [leading, leading, hsplit, BitVec.shiftRight_add, BitVec.shiftRight_add, h']

theorem Network.contains_of_within {inner outer : Network w} (h : inner.within outer = true)
    {ip : BitVec w} (hip : inner.contains ip = true) : outer.contains ip = true := by
  obtain ⟨hlength, hbase⟩ : outer.length ≤ inner.length ∧
      leading outer.length inner.base = leading outer.length outer.base := by
    simpa [within, contains] using h
  have hinner : leading inner.length ip = leading inner.length inner.base := by
    simpa [contains] using hip
  simpa [contains] using (leading_of_le hlength hinner).trans hbase

/-- Two networks with an address in common are nested. -/
theorem Network.nested {a b : Network w} {ip : BitVec w} (ha : a.contains ip = true)
    (hb : b.contains ip = true) : a.within b = true ∨ b.within a = true := by
  have ha' : leading a.length ip = leading a.length a.base := by simpa [contains] using ha
  have hb' : leading b.length ip = leading b.length b.base := by simpa [contains] using hb
  by_cases hlength : b.length ≤ a.length
  · have hbase := (leading_of_le hlength ha').symm.trans hb'
    exact .inl (by simpa [within, contains] using ⟨hlength, hbase⟩)
  · have hle : a.length ≤ b.length := by omega
    have hbase := (leading_of_le hle hb').symm.trans ha'
    exact .inr (by simpa [within, contains] using ⟨hle, hbase⟩)

/-- In one of the networks, and in none of the exceptions. -/
def listed (nets exceptions : List (Network w)) (ip : BitVec w) : Bool :=
  nets.any (·.contains ip) && exceptions.all (fun net => !net.contains ip)

/-- A network that lies within one of the networks and meets no exception is listed as a whole. -/
theorem listed_of_within {nets exceptions : List (Network w)} {inner : Network w}
    (hnets : ∃ outer ∈ nets, inner.within outer = true)
    (hapart : ∀ net ∈ exceptions, inner.within net = false ∧ net.within inner = false)
    {ip : BitVec w} (hip : inner.contains ip = true) : listed nets exceptions ip = true := by
  obtain ⟨outer, houter, hwithin⟩ := hnets
  have hany : nets.any (·.contains ip) = true :=
    List.any_eq_true.mpr ⟨outer, houter, Network.contains_of_within hwithin hip⟩
  have hall : exceptions.all (fun net => !net.contains ip) = true := by
    rw [List.all_eq_true]
    intro net hnet
    obtain ⟨hin, hout⟩ := hapart net hnet
    by_contra hcontains
    rcases Network.nested hip (by simpa using hcontains) with h | h
    · rw [hin] at h
      cases h
    · rw [hout] at h
      cases h
  rw [listed, hany, hall]
  rfl

end Networks
