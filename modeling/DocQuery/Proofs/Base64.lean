import DocQuery.Base64
import Mathlib.Tactic.Common

/-!
# Base64 is read as it is written

Four characters stand for three bytes, and at the end of the text two or three characters for
one or two bytes, with padding behind them and no bits left over. The texts of this form are the
ones that bytes are written as, and each of them is read as its bytes and no others.
-/

namespace DocQuery.Base64

/-- The texts in the standard alphabet with padding and no bits left over. -/
inductive IsStandard : List Char → Prop
  | nil : IsStandard []
  | oneByte {first second : Nat} :
      first < 64 → second < 4 →
      IsStandard [sextet first, sextet (second * 16), '=', '=']
  | twoBytes {first second third : Nat} :
      first < 64 → second < 64 → third < 16 →
      IsStandard [sextet first, sextet second, sextet (third * 4), '=']
  | threeBytes {first second third fourth : Nat} {rest : List Char} :
      first < 64 → second < 64 → third < 64 → fourth < 64 →
      IsStandard rest →
      IsStandard (sextet first :: sextet second :: sextet third :: sextet fourth :: rest)

@[simp]
theorem value?_sextet {value : Nat} (small : value < 64) : value? (sextet value) = some value := by
  have all : ∀ value < 64, value? (sextet value) = some value := by
    decide +kernel
  exact all value small

theorem value?_eq_some_iff {c : Char} {value : Nat} :
    value? c = some value ↔ value < 64 ∧ sextet value = c := by
  constructor
  · intro found
    obtain ⟨inside, same, _⟩ := List.idxOf?_eq_some_iff.mp found
    have small : value < 64 := inside
    refine ⟨small, ?_⟩
    rw [sextet, List.getD_eq_getElem?_getD, List.getElem?_eq_getElem inside, same, Option.getD_some]
  · rintro ⟨small, rfl⟩
    exact value?_sextet small

theorem sextet_ne_padding {value : Nat} (small : value < 64) : sextet value ≠ '=' := by
  have noValue : value? '=' = none := by
    decide
  intro same
  rw [← same, value?_sextet small] at noValue
  cases noValue

/-- Four characters that do not end the text in padding. -/
theorem decode?_cons {fourth : Nat} (small : fourth < 64) (a b c : Char) (rest : List Char) :
    decode? (a :: b :: c :: sextet fourth :: rest) = do
      let bits := (((← value? a) * 64 + (← value? b)) * 64 + (← value? c)) * 64 + fourth
      let bytes ← decode? rest
      return UInt8.ofNat (bits / 65536) :: UInt8.ofNat (bits / 256) :: UInt8.ofNat bits
        :: bytes := by
  have noPadding : ¬(sextet fourth = '=' ∧ rest = []) := fun padded =>
    sextet_ne_padding small padded.1
  rw [decode?, if_neg noPadding]
  simp [value?_sextet small]

theorem ofNat_eq {byte : UInt8} {value : Nat} (same : value % 256 = byte.toNat) :
    UInt8.ofNat value = byte := by
  apply UInt8.toNat_inj.mp
  rw [UInt8.toNat_ofNat', same]

theorem decode?_encode (bytes : List UInt8) : decode? (encode bytes) = some bytes := by
  fun_induction encode bytes with
  | case1 =>
      rfl
  | case2 first bits =>
      have bound := first.toNat_lt
      have firstSmall : bits / 64 < 64 := by omega
      have secondSmall : bits % 64 < 64 := by omega
      have whole : bits / 64 * 64 + bits % 64 = bits := by omega
      have noBitsLeft : bits % 16 = 0 := by omega
      have byte : UInt8.ofNat (bits / 16) = first := ofNat_eq (by omega)
      simp [decode?, lastGroup?, value?_sextet, firstSmall, secondSmall, whole, noBitsLeft, byte]
  | case3 first second bits =>
      have firstBound := first.toNat_lt
      have secondBound := second.toNat_lt
      have firstSmall : bits / 4096 < 64 := by omega
      have secondSmall : bits / 64 % 64 < 64 := by omega
      have thirdSmall : bits % 64 < 64 := by omega
      have whole : (bits / 4096 * 64 + bits / 64 % 64) * 64 + bits % 64 = bits := by omega
      have noBitsLeft : bits % 4 = 0 := by omega
      have firstByte : UInt8.ofNat (bits / 1024) = first := ofNat_eq (by omega)
      have secondByte : UInt8.ofNat (bits / 4) = second := ofNat_eq (by omega)
      simp [decode?, lastGroup?, sextet_ne_padding, value?_sextet, firstSmall, secondSmall,
        thirdSmall, whole, noBitsLeft, firstByte, secondByte]
  | case4 first second third rest inductionHypothesis =>
      have firstBound := first.toNat_lt
      have secondBound := second.toNat_lt
      have thirdBound := third.toNat_lt
      simp only [quartet, List.cons_append, List.nil_append]
      generalize equal : (first.toNat * 256 + second.toNat) * 256 + third.toNat = bits
      have firstSmall : bits / 262144 < 64 := by omega
      have secondSmall : bits / 4096 % 64 < 64 := by omega
      have thirdSmall : bits / 64 % 64 < 64 := by omega
      have whole : ((bits / 262144 * 64 + bits / 4096 % 64) * 64 + bits / 64 % 64) * 64 +
          bits % 64 = bits := by omega
      have firstByte : UInt8.ofNat (bits / 65536) = first := ofNat_eq (by omega)
      have secondByte : UInt8.ofNat (bits / 256) = second := ofNat_eq (by omega)
      have thirdByte : UInt8.ofNat bits = third := ofNat_eq (by omega)
      rw [decode?_cons (by omega)]
      simp only [value?_sextet firstSmall, value?_sextet secondSmall, value?_sextet thirdSmall,
        Option.bind_eq_bind, Option.bind_some, whole, inductionHypothesis, firstByte, secondByte,
        thirdByte]
      rfl

theorem encode_of_lastGroup? {a b c : Char} {bytes : List UInt8}
    (decoded : lastGroup? a b c = some bytes) : encode bytes = [a, b, c, '='] := by
  unfold lastGroup? at decoded
  split at decoded
  · next padded =>
      simp only [Option.bind_eq_bind, Option.bind_eq_some_iff, Option.ite_none_right_eq_some,
        Option.some.injEq, value?_eq_some_iff] at decoded
      obtain ⟨x, ⟨xSmall, rfl⟩, y, ⟨ySmall, rfl⟩, noBitsLeft, rfl⟩ := decoded
      have byte : (UInt8.ofNat ((x * 64 + y) / 16)).toNat = (x * 64 + y) / 16 := by
        rw [UInt8.toNat_ofNat']
        omega
      have high : (x * 64 + y) / 16 * 16 / 64 = x := by omega
      have low : (x * 64 + y) / 16 * 16 % 64 = y := by omega
      simp only [encode, byte, high, low, padded]
  · simp only [Option.bind_eq_bind, Option.bind_eq_some_iff, Option.ite_none_right_eq_some,
      Option.some.injEq, value?_eq_some_iff] at decoded
    obtain ⟨x, ⟨xSmall, rfl⟩, y, ⟨ySmall, rfl⟩, z, ⟨zSmall, rfl⟩, noBitsLeft, rfl⟩ := decoded
    generalize equal : (x * 64 + y) * 64 + z = bits at noBitsLeft ⊢
    have bytes : ((UInt8.ofNat (bits / 1024)).toNat * 256 + (UInt8.ofNat (bits / 4)).toNat) * 4 =
        bits := by
      rw [UInt8.toNat_ofNat', UInt8.toNat_ofNat']
      omega
    have high : bits / 4096 = x := by omega
    have middle : bits / 64 % 64 = y := by omega
    have low : bits % 64 = z := by omega
    simp only [encode, bytes, high, middle, low]

/-- Only what is written is read. -/
theorem encode_of_decode? {chars : List Char} {bytes : List UInt8}
    (decoded : decode? chars = some bytes) : encode bytes = chars := by
  fun_induction decode? chars generalizing bytes with
  | case1 =>
      obtain rfl := Option.some.inj decoded
      rfl
  | case2 a b c d rest last =>
      obtain ⟨rfl, rfl⟩ := last
      exact encode_of_lastGroup? decoded
  | case3 a b c d rest notLast inductionHypothesis =>
      simp only [Option.bind_eq_bind, Option.bind_eq_some_iff, Option.pure_def,
        Option.some.injEq, value?_eq_some_iff] at decoded
      obtain ⟨x, ⟨xSmall, rfl⟩, y, ⟨ySmall, rfl⟩, z, ⟨zSmall, rfl⟩, w, ⟨wSmall, rfl⟩,
        later, restDecoded, rfl⟩ := decoded
      generalize equal : ((x * 64 + y) * 64 + z) * 64 + w = bits
      have whole : ((UInt8.ofNat (bits / 65536)).toNat * 256 + (UInt8.ofNat (bits / 256)).toNat) *
          256 + (UInt8.ofNat bits).toNat = bits := by
        simp only [UInt8.toNat_ofNat']
        omega
      have first : bits / 262144 = x := by omega
      have second : bits / 4096 % 64 = y := by omega
      have third : bits / 64 % 64 = z := by omega
      have fourth : bits % 64 = w := by omega
      simp only [encode, quartet, whole, first, second, third, fourth,
        inductionHypothesis restDecoded, List.cons_append, List.nil_append]
  | case4 =>
      cases decoded

theorem ofText?_eq_some_iff {written : String} {bytes : List UInt8} :
    ofText? written = some bytes ↔ text bytes = written := by
  constructor
  · intro decoded
    rw [text, encode_of_decode? decoded, String.ofList_toList]
  · rintro rfl
    rw [ofText?, text, String.toList_ofList, decode?_encode]

theorem IsStandard.exists_decode? {chars : List Char} (standard : IsStandard chars) :
    ∃ bytes, decode? chars = some bytes := by
  induction standard with
  | nil =>
      exact ⟨[], rfl⟩
  | @oneByte first second firstSmall secondSmall =>
      have shifted : second * 16 < 64 := by omega
      have noBitsLeft : first * 64 % 16 = 0 := by omega
      refine ⟨[UInt8.ofNat ((first * 64 + second * 16) / 16)], ?_⟩
      simp [decode?, lastGroup?, firstSmall, shifted, noBitsLeft]
  | @twoBytes first second third firstSmall secondSmall thirdSmall =>
      have shifted : third * 4 < 64 := by omega
      have noBitsLeft : (first * 64 + second) * 64 % 4 = 0 := by omega
      refine ⟨[UInt8.ofNat (((first * 64 + second) * 64 + third * 4) / 1024),
        UInt8.ofNat (((first * 64 + second) * 64 + third * 4) / 4)], ?_⟩
      simp [decode?, lastGroup?, sextet_ne_padding shifted, firstSmall, secondSmall, shifted,
        noBitsLeft]
  | threeBytes firstSmall secondSmall thirdSmall fourthSmall _ inductionHypothesis =>
      obtain ⟨later, restDecoded⟩ := inductionHypothesis
      simp [decode?_cons fourthSmall, firstSmall, secondSmall, thirdSmall, restDecoded]

/-- Bytes are written as the texts of the standard form. -/
theorem isStandard_iff {chars : List Char} :
    IsStandard chars ↔ ∃ bytes, encode bytes = chars := by
  constructor
  · intro standard
    obtain ⟨bytes, decoded⟩ := standard.exists_decode?
    exact ⟨bytes, encode_of_decode? decoded⟩
  · rintro ⟨bytes, rfl⟩
    fun_induction encode bytes with
    | case1 =>
        exact .nil
    | case2 first bits =>
        have bound := first.toNat_lt
        have low : bits % 64 = bits % 64 / 16 * 16 := by omega
        rw [low]
        exact .oneByte (by omega) (by omega)
    | case3 first second bits =>
        have firstBound := first.toNat_lt
        have secondBound := second.toNat_lt
        have low : bits % 64 = bits % 64 / 4 * 4 := by omega
        rw [low]
        exact .twoBytes (by omega) (by omega) (by omega)
    | case4 first second third rest inductionHypothesis =>
        have firstBound := first.toNat_lt
        have secondBound := second.toNat_lt
        have thirdBound := third.toNat_lt
        exact .threeBytes (by omega) (by omega) (by omega) (by omega) inductionHypothesis

end DocQuery.Base64
