import Xion.Lib.Bytes

/-!
# What the DKIM module calls outside the repository

The functions of Go's standard library and of third-party packages that `x/dkim` calls, taken as
parameters of the model: base64 and PEM decoding, X.509 and PKCS parsing of RSA keys, SHA-256,
the Poseidon hash of `go-iden3-crypto`, and the encoding of BN254 scalar field elements of
`gnark-crypto`. A theorem that needs one of them to behave as documented says so in a named
hypothesis; the only one the development uses is `FrBytesSpec`, the documented encoding of a
field element, and its witnesses instantiate `frBytes` with `frElementBytes`.
-/

namespace Xion.Dkim

/-- `rsa.PublicKey`: the modulus `N` and the exponent `E`. -/
structure RsaPublicKey where
  n : ℕ
  e : ℤ
  deriving DecidableEq, Repr

/-- Two RSA keys with the same exponent and modulus are equal, as the comparison of
`RevokeDkimPubKey` assumes. -/
theorem RsaPublicKey.eq_of_e_n {a b : RsaPublicKey} (he : a.e = b.e) (hn : a.n = b.n) : a = b := by
  cases a
  cases b
  simp_all

/-- A public key as `x509.ParsePKIXPublicKey` returns it: an RSA key or a key of another type. -/
inductive PublicKeyAny where
  | rsa (k : RsaPublicKey)
  | other
  deriving DecidableEq, Repr

/-- A private key as `x509.ParsePKCS8PrivateKey` returns it, by its public half when it is an
RSA key. -/
inductive PrivateKeyAny where
  | rsa (pub : RsaPublicKey)
  | other
  deriving DecidableEq, Repr

/-- The external functions of the module. `none` stands for a returned error (or, for
`poseidonHash`, a recovered panic). -/
structure Primitives where
  /-- `fr.NewElement(0).SetBigInt(x).Bytes()` of `gnark-crypto`. -/
  frBytes : ℤ → Bytes
  /-- `base64.StdEncoding.DecodeString`. -/
  base64Decode : Bytes → Option Bytes
  /-- `base64.StdEncoding.EncodeToString`. -/
  base64Encode : Bytes → Bytes
  /-- The `Bytes` of the block that `pem.Decode` returns, `none` when it finds no block. -/
  pemDecode : Bytes → Option Bytes
  /-- `x509.ParsePKIXPublicKey`. -/
  parsePKIXPublicKey : Bytes → Option PublicKeyAny
  /-- `x509.ParsePKCS1PublicKey`. -/
  parsePKCS1PublicKey : Bytes → Option RsaPublicKey
  /-- `x509.MarshalPKCS1PublicKey`. -/
  marshalPKCS1PublicKey : RsaPublicKey → Bytes
  /-- `sha256.Sum256`. -/
  sha256 : Bytes → Bytes
  /-- `x509.ParsePKCS1PrivateKey`, by the public half of the key. -/
  parsePKCS1PrivateKey : Bytes → Option RsaPublicKey
  /-- `x509.ParsePKCS8PrivateKey`. -/
  parsePKCS8PrivateKey : Bytes → Option PrivateKeyAny
  /-- `poseidon.Hash` of `go-iden3-crypto`. -/
  poseidonHash : List ℤ → Option ℤ

/-- The order `r` of the BN254 scalar field, as `bn254ScalarPrime` of `x/zk/keeper` spells it. -/
def bn254ScalarModulus : ℕ :=
  21888242871839275222246405745257275088548364400416034343698204186575808495617

/-- The documented encoding of a field element: `SetBigInt` keeps a value below the modulus,
and `Bytes` writes the canonical value as 32 big-endian bytes. -/
def FrBytesSpec (frBytes : ℤ → Bytes) : Prop :=
  ∀ x : ℕ, x < bn254ScalarModulus → frBytes x = Bytes.ofNatBE 32 x

/-- The encoding of field elements as `gnark-crypto` documents it, reducing modulo `r`. -/
def frElementBytes (x : ℤ) : Bytes := Bytes.ofNatBE 32 (x % bn254ScalarModulus).toNat

theorem frElementBytes_spec : FrBytesSpec frElementBytes := by
  intro x hx
  have hmod : (x : ℤ) % (bn254ScalarModulus : ℤ) = x :=
    Int.emod_eq_of_lt (Int.natCast_nonneg x) (by exact_mod_cast hx)
  rw [frElementBytes, hmod, Int.toNat_natCast]

end Xion.Dkim
