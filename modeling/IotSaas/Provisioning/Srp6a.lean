import IotSaas.Lib.Hex
import IotSaas.Lib.Power
import Mathlib.Algebra.Order.Ring.Int
import Mathlib.RingTheory.Coprime.Lemmas

/-!
# `Provisioning/Srp6a.lean` — the verifier a board is set up with

`frontend/src/lib/srp6a.ts`: the salt and the verifier that a board of provisioning security 2 is
given, computed in the browser from the user name and the password. A `BigInt` is an integer here,
and its `%` takes the sign of the dividend (`Int.tmod`). SHA-512 is a function from outside, and so
is the random salt.

`verifier_exact` says that nothing is lost on the way: the loop is the power it is meant to be, for
every base and every exponent, and bytes and numbers go back and forth by way of hexadecimal texts.
-/

set_option autoImplicit false

namespace IotSaas.Provisioning

open Lib

/-! ## The group -/

/-- `N_HEX`, row by row. -/
def nRows : List Nat :=
  [0xffffffffffffffffc90fdaa22168c234c4c6628b80dc1cd129024e088a67cc74,
    0x020bbea63b139b22514a08798e3404ddef9519b3cd3a431b302b0a6df25f1437,
    0x4fe1356d6d51c245e485b576625e7ec6f44c42e9a637ed6b0bff5cb6f406b7ed,
    0xee386bfb5a899fa5ae9f24117c4b1fe649286651ece45b3dc2007cb8a163bf05,
    0x98da48361c55d39a69163fa8fd24cf5f83655d23dca3ad961c62f356208552bb,
    0x9ed529077096966d670c354e4abc9804f1746c08ca18217c32905e462e36ce3b,
    0xe39e772c180e86039b2783a2ec07a28fb5c55df06f4c52c9de2bcbf695581718,
    0x3995497cea956ae515d2261898fa051015728e5a8aaac42dad33170d04507a33,
    0xa85521abdf1cba64ecfb850458dbef0a8aea71575d060c7db3970f85a6e1e4c7,
    0xabf5ae8cdb0933d71e8c94e04a25619dcee3d2261ad2ee6bf12ffa06d98a0864,
    0xd87602733ec86a64521f2b18177b200cbbe117577a615d6c770988c0bad946e2,
    0x08e24fa074e5ab3143db5bfce0fd108e4b82d120a93ad2caffffffffffffffff]

/-- `N`, of rows of 64 digits. -/
def N : Int := (nRows.foldl (fun n row => n * 16 ^ 64 + row) 0 : Nat)

/-- `G`. -/
def G : Int := 5

/-! ## Bytes and numbers -/

/-- `enc.encode`. -/
def enc (text : String) : List UInt8 := text.toUTF8.data.toList

/-- `toBig`. -/
def toBig (b : List UInt8) : Int :=
  let hex := b.flatMap Hex.byteText
  Hex.read (if hex = [] then ['0'] else hex)

/-- `toBytes`. No caller has a negative number. -/
def toBytes (n : Nat) : List UInt8 :=
  let hex := Nat.toDigits 16 n
  let hex := if hex.length % 2 = 1 then '0' :: hex else hex
  (Hex.pairs hex).map Hex.byteOf

example : toBytes 0x305 = [3, 5] := by decide

/-! ## The power -/

/-- The loop of `modPow`. -/
def modPowLoop (mod result b e : Int) : Int :=
  if 0 < e then
    modPowLoop mod (if e % 2 = 1 then (result * b).tmod mod else result) ((b * b).tmod mod) (e / 2)
  else result
termination_by e.toNat

/-- `modPow`. -/
def modPow (base exp mod : Int) : Int := modPowLoop mod 1 (base.tmod mod) exp

/-- `sec2Credentials`. -/
structure Credentials where
  salt : List UInt8
  verifier : List UInt8
  deriving DecidableEq

/-- `x` of `sec2Credentials`. -/
def privateKey (sha512 : List UInt8 → List UInt8) (username password : String)
    (salt : List UInt8) : Int :=
  let inner := sha512 (enc username ++ enc ":" ++ enc password)
  toBig (sha512 (salt ++ inner))

/-- `sec2Credentials`, with its salt. -/
def sec2Credentials (sha512 : List UInt8 → List UInt8) (username password : String)
    (salt : List UInt8) : Credentials :=
  { salt
    verifier := toBytes (modPow G (privateKey sha512 username password salt) N).toNat }

/-! ## What they come to -/

/-- A remainder is a way to reduce products early. -/
def remainder (mod : Int) : Reduction Int where
  reduce x := x.tmod mod
  idem x := Int.tmod_tmod x mod
  mul x y := Int.mul_tmod x y mod

/-- The loop over the bits is square and multiply. -/
theorem modPowLoop_eq (mod result b e : Int) :
    modPowLoop mod result b e = squareMultiply (remainder mod) result b e.toNat := by
  induction result, b, e using modPowLoop.induct mod with
  | case1 result b e hpos ih =>
    have hne : ¬e.toNat = 0 := by omega
    have hodd : e.toNat % 2 = 1 ↔ e % 2 = 1 := by omega
    have hhalf : (e / 2).toNat = e.toNat / 2 := by omega
    simp only [dite_eq_ite] at ih
    rw [modPowLoop, if_pos hpos, ih]
    conv_rhs => rw [squareMultiply, if_neg hne]
    simp only [hodd, hhalf]
    rfl
  | case2 result b e hdone =>
    have hzero : e.toNat = 0 := by omega
    rw [modPowLoop, if_neg hdone, squareMultiply, if_pos hzero]

/-- **`modPow` is the power**, reduced as `%` reduces it. -/
theorem modPow_eq (base exp mod : Int) (hmod : 1 < mod) :
    modPow base exp mod = (base ^ exp.toNat).tmod mod := by
  have hone : (remainder mod).reduce 1 = 1 := Int.tmod_eq_of_lt (by omega) hmod
  rw [modPow, modPowLoop_eq]
  exact power_eq hone base exp.toNat

theorem toBig_eq (b : List UInt8) : toBig b = Hex.read (b.flatMap Hex.byteText) := by
  unfold toBig
  dsimp only
  split
  · rename_i hnil
    rw [hnil]
    rfl
  · rfl

theorem toBig_nonneg (b : List UInt8) : 0 ≤ toBig b := by
  rw [toBig_eq]
  exact Int.natCast_nonneg _

/-- The text `toBytes` takes by pairs: as many digits as there are places, and the same number. -/
theorem even_text (n : Nat) :
    let hex := Nat.toDigits 16 n
    let text := if hex.length % 2 = 1 then '0' :: hex else hex
    text.length % 2 = 0 ∧ (∀ c ∈ text, Hex.IsDigit c) ∧ Hex.read text = n := by
  have hdigits : ∀ c ∈ Nat.toDigits 16 n, Hex.IsDigit c := by
    intro c hc
    rw [Hex.toDigits_eq] at hc
    obtain ⟨d, hd, rfl⟩ := List.mem_map.mp hc
    exact ⟨d, Hex.lt_of_mem_digits hd, rfl⟩
  dsimp only
  split
  · rename_i hodd
    refine ⟨?_, ?_, ?_⟩
    · rw [List.length_cons]
      omega
    · intro c hc
      rcases List.mem_cons.mp hc with rfl | hc
      · exact ⟨0, by simp, rfl⟩
      · exact hdigits c hc
    · rw [Hex.read_zero_cons, Hex.read_toDigits]
  · rename_i heven
    exact ⟨by omega, hdigits, Hex.read_toDigits n⟩

/-- **A number is read back from its bytes.** -/
theorem toBig_toBytes (n : Nat) : toBig (toBytes n) = n := by
  obtain ⟨heven, hdigits, hread⟩ := even_text n
  rw [toBig_eq]
  unfold toBytes
  dsimp only
  rw [Hex.flatMap_byteText heven hdigits, hread]

/-- The byte of two digits is not zero unless both of them are. -/
theorem byteOf_ne_zero {x y : Nat} (hx : x < 16) (hy : y < 16) (h : 0 < 16 * x + y) :
    Hex.byteOf (x.digitChar, y.digitChar) ≠ 0 := by
  intro hzero
  have hvalue := congrArg UInt8.toNat hzero
  simp only [Hex.byteOf, Hex.read, List.foldl_cons, List.foldl_nil, Hex.digitValue_digitChar hx,
    Hex.digitValue_digitChar hy, UInt8.toNat_ofNat'] at hvalue
  simp at hvalue
  omega

/-- **No zero byte leads.** -/
theorem toBytes_head {n : Nat} (h : 0 < n) : ∃ b rest, toBytes n = b :: rest ∧ b ≠ 0 := by
  obtain ⟨d, rest, hdigits, hne⟩ := Hex.head_digits h
  have hd : d < 16 := Hex.lt_of_mem_digits (by rw [hdigits]; simp)
  unfold toBytes
  dsimp only
  rw [Hex.toDigits_eq, hdigits, List.map_cons]
  split
  · -- the zero that was put in front shares its byte with the first digit
    exact ⟨_, _, rfl, byteOf_ne_zero (x := 0) (by omega) hd (by omega)⟩
  · rename_i heven
    cases rest with
    | nil => simp at heven
    | cons e rest =>
      have he : e < 16 := Hex.lt_of_mem_digits (by rw [hdigits]; simp)
      exact ⟨_, _, rfl, byteOf_ne_zero hd he (by omega)⟩

/-- The number and the generator have no factor in common, so no power of it is zero. -/
theorem pow_pos_mod (x : Nat) : 0 < (5 : Int) ^ x % N := by
  have hcoprime : IsCoprime ((5 : Int) ^ x) N := by
    refine IsCoprime.pow_left ?_
    rw [Int.isCoprime_iff_gcd_eq_one]
    decide
  have hnonneg : 0 ≤ (5 : Int) ^ x % N := Int.emod_nonneg _ (by decide)
  refine lt_of_le_of_ne hnonneg ?_
  intro hzero
  have hdvd : N ∣ (5 : Int) ^ x := Int.dvd_of_emod_eq_zero hzero.symm
  have hunit : IsUnit N := hcoprime.isUnit_of_dvd' hdvd dvd_rfl
  rw [Int.isUnit_iff] at hunit
  revert hunit
  decide

/-- **The verifier.** `modPow` is the power, with `mod` for BigInt's `%`: the remainder has the sign of
what is divided, so for a base below zero it may be below zero too, and for any other base (the only
one the code has is 5) it is the residue; bytes are read back as the number they were made of, and none of them leads with
a zero; and so the verifier's bytes are the power of the generator to the private key. -/
theorem verifier_exact (sha512 : List UInt8 → List UInt8) :
    (∀ base exp mod : Int, 0 ≤ exp → 1 < mod →
      modPow base exp mod = (base ^ exp.toNat).tmod mod ∧
        (0 ≤ base → modPow base exp mod = base ^ exp.toNat % mod)) ∧
      (∀ n : Nat, toBig (toBytes n) = n ∧
        (0 < n → ∃ b rest, toBytes n = b :: rest ∧ b ≠ 0)) ∧
      ∀ (username password : String) (salt : List UInt8),
        let x := toBig (sha512 (salt ++ sha512 (enc (username ++ ":" ++ password))))
        let verifier := (sec2Credentials sha512 username password salt).verifier
        0 ≤ x ∧ toBig verifier = 5 ^ x.toNat % N ∧ ∃ b rest, verifier = b :: rest ∧ b ≠ 0 := by
  have hpow : ∀ base exp mod : Int, 1 < mod → 0 ≤ base →
      modPow base exp mod = base ^ exp.toNat % mod := by
    intro base exp mod hmod hbase
    rw [modPow_eq base exp mod hmod, Int.tmod_eq_emod_of_nonneg (pow_nonneg hbase _)]
  refine ⟨?_, fun n => ⟨toBig_toBytes n, toBytes_head⟩, ?_⟩
  · intro base exp mod _ hmod
    exact ⟨modPow_eq base exp mod hmod, hpow base exp mod hmod⟩
  · intro username password salt
    have hinner : enc (username ++ ":" ++ password) =
        enc username ++ enc ":" ++ enc password := by
      simp [enc, String.toByteArray_append]
    have hkey : privateKey sha512 username password salt =
        toBig (sha512 (salt ++ sha512 (enc (username ++ ":" ++ password)))) := by
      rw [hinner]
      rfl
    have hvalue : modPow G (privateKey sha512 username password salt) N =
        5 ^ (privateKey sha512 username password salt).toNat % N :=
      hpow G _ N (by decide) (by decide)
    have hpos := pow_pos_mod (privateKey sha512 username password salt).toNat
    dsimp only
    rw [← hkey]
    refine ⟨toBig_nonneg _, ?_, ?_⟩
    · rw [sec2Credentials, toBig_toBytes, hvalue, Int.toNat_of_nonneg hpos.le]
    · rw [sec2Credentials, hvalue]
      exact toBytes_head (by omega)

/-- SHA-512, of what is hashed for ESP-IDF's test credentials. -/
def digest (bytes : List UInt8) : List UInt8 :=
  if bytes = enc "wifiprov:abcd1234" then
    toBytes
      0x714242d85f632d879099ff6ad0a090f2ea6da5af6b1b24cd2326ac73472f97e95ab9b2c537cbae0ea5ef10e3849b616269a3fadf8e193745008648e2efb01447
  else
    toBytes
      0x869b97a7399bdc2e9e2943dbf1f5347a10108ea60e278cafb5849aa0c14f6b735aa186d260e779838af03d4393961086dabe3321c01c58672f186b698f83314a

/-- With ESP-IDF's salt. -/
theorem verifier_exact_small :
    modPow 3 100 391 = 3 ^ 100 % 391 ∧ (∃ b rest, toBytes 4660 = b :: rest ∧ b ≠ 0) ∧
      let salt := toBytes 0x036ee0c7bcb9eda84c9eac97d93decf4
      let x := toBig (digest (salt ++ digest (enc ("wifiprov" ++ ":" ++ "abcd1234"))))
      let verifier := (sec2Credentials digest "wifiprov" "abcd1234" salt).verifier
      0 ≤ x ∧ toBig verifier = 5 ^ x.toNat % N ∧ ∃ b rest, verifier = b :: rest ∧ b ≠ 0 :=
  ⟨((verifier_exact digest).1 3 100 391 (by decide) (by decide)).2 (by decide),
    ((verifier_exact digest).2.1 4660).2 (by decide),
    (verifier_exact digest).2.2 "wifiprov" "abcd1234" _⟩

end IotSaas.Provisioning
