import VisionBill.Numbers
import Mathlib.Data.Rat.Defs

/-!
# Session tokens

A session token is `"{user_id}.{exp}.{sig}"` with a signature over the
first two parts. `decode_token` gets whatever the cookie holds. It reads
the two parts leniently, prints them again, and compares the signature of
that text with the third part. Every cookie that reads and has an ASCII
third part is answered as it should be; a third part that is not ASCII
makes the comparison itself raise, after both readers have accepted their
parts.

## Reading and printing

`UUID(...)` and `int(...)` read more texts than are ever printed: braces
and hyphens anywhere, blanks around a number, digits of other scripts.
What is signed is not the text of the cookie but the text that is printed
for what was read. So one token is accepted in several spellings, all of
the same user and expiry and with the same signature, and a token reads in
one way at most (`Reads.unique`). That is what makes the two halves of the
result meet: what is granted is said of the parts (`Grants`), and the code
computes it from the text.

## A token that was made

A new token is accepted until it expires. An expiry can be too far away to
be printed at all, since Python refuses to print an integer with too many
digits; then there is no token, and no other condition is needed
(`roundTrips_iff`).

The signature is a parameter: any function of key and message that prints
hexadecimal digits.
-/

namespace VisionBill

/-- What is raised around a token. Neither is caught in `decode_token`, so
either of them ends the request. -/
inductive TokenError
  | valueError
  | typeError
  deriving DecidableEq

/-- `hmac.new(key, message, hashlib.sha256).hexdigest()`. All that is used
of it is that it prints hexadecimal digits. -/
class Hmac where
  hexdigest : String → String → String
  hex : ∀ key message, ∀ c ∈ (hexdigest key message).toList, Numerals.isDigit 16 c = true

/-- `int(t)` of a float that is a number. -/
def truncate (t : ℚ) : ℤ := t.num.tdiv t.den

/-- `hmac.compare_digest` on two `str`, which takes ASCII only. -/
def compareDigest (a b : String) : Except TokenError Bool :=
  if a.toList.all isAscii ∧ b.toList.all isAscii then .ok (a == b) else .error .typeError

/-- `f"{user_id}.{exp}"`. An integer with too many digits is not
printed. -/
def tokenMessage (userId : UUID) (exp : ℤ) : Except TokenError String :=
  match intText exp with
  | some text => .ok (uuidText userId ++ "." ++ text)
  | none => .error .valueError

section Session

variable [DecimalDigits] [Hmac]

omit [DecimalDigits] in
/-- `_sign`. -/
def sign (secret message : String) : String := Hmac.hexdigest secret message

omit [DecimalDigits] in
/-- `create_token`, at the time `now`. -/
def createToken (userId : UUID) (maxAge : ℤ) (secret : String) (now : ℚ) :
    Except TokenError String := do
  let message ← tokenMessage userId (truncate now + maxAge)
  return message ++ "." ++ sign secret message

/-- `decode_token`, at the time `now`. The time is compared last, so that
of a forged token not even the expiry is told. -/
def decodeToken (token secret : String) (now : ℚ) : Except TokenError (Option UUID) :=
  match token.toList.splitOn '.' with
  | [userIdS, expS, sig] =>
    match uuid? (String.ofList userIdS), int? 10 (String.ofList expS) with
    | some userId, some exp => do
      let message ← tokenMessage userId exp
      if ¬ (← compareDigest (String.ofList sig) (sign secret message)) then return none
      if exp < now then return none
      return some userId
    | _, _ => return none
  | _ => return none

/-! ## Acceptance

Three parts that a dot separates, a signature over the first two, an
identifier and a time: the specification says which tokens should be
accepted, and whose they are. -/

/-- The parts of a token that reads as a user and an expiry. -/
def Reads (token : String) (userId : UUID) (exp : ℤ) (sig : String) : Prop :=
  ∃ userIdS expS, token.toList.splitOn '.' = [userIdS, expS, sig.toList]
    ∧ uuid? (String.ofList userIdS) = some userId ∧ int? 10 (String.ofList expS) = some exp

/-- The token is a user's, signed and not expired. The signature is that
of what the parts read as. -/
def Grants (token secret : String) (now : ℚ) (userId : UUID) : Prop :=
  ∃ exp, Reads token userId exp (sign secret (uuidText userId ++ "." ++ toString exp))
    ∧ now ≤ exp

/-- `decode_token` returns, and it returns a user exactly if the token is
that user's. Both halves are needed: a token that is nobody's must not be
accepted, and neither may one be turned down that is somebody's. That it
returns at all is part of it, since an exception is an answer with status
500. -/
def DecodesExactly (token secret : String) (now : ℚ) : Prop :=
  ∃ user, decodeToken token secret now = .ok user
    ∧ ∀ userId, user = some userId ↔ Grants token secret now userId

/-- Both readers accept their parts, and the third part is not ASCII.
These are the tokens for which `compare_digest` is reached and raises. It
does not matter whether the signature would have been right, as it cannot
be. -/
def SignedOutsideAscii (token : String) : Prop :=
  ∃ userId exp sig, Reads token userId exp sig ∧ sig.toList.all isAscii = false

/-- A new token can be made, and is its user's up to the stored expiry. It
cannot be made if the expiry has more digits than an integer may be
printed with. -/
def RoundTrips (userId : UUID) (maxAge : ℤ) (secret : String) (now : ℚ) : Prop :=
  ∃ token, createToken userId maxAge secret now = .ok token
    ∧ ∀ later : ℚ, later ≤ (truncate now + maxAge : ℤ) →
      decodeToken token secret later = .ok (some userId)

omit [DecimalDigits] in
/-- A signature can be compared. -/
theorem isAscii_sign (secret message : String) :
    (sign secret message).toList.all isAscii = true :=
  List.all_eq_true.mpr fun c hc => (isDigit_sixteen (Hmac.hex _ _ c hc)).1

omit [Hmac] in
/-- A token reads in one way at most. -/
theorem Reads.unique {token sig sig' : String} {userId userId' : UUID} {exp exp' : ℤ}
    (h : Reads token userId exp sig) (h' : Reads token userId' exp' sig') :
    userId = userId' ∧ exp = exp' ∧ sig = sig' := by
  obtain ⟨userIdS, expS, hparts, huser, hexp⟩ := h
  obtain ⟨userIdS', expS', hparts', huser', hexp'⟩ := h'
  simp only [hparts, List.cons.injEq, and_true] at hparts'
  obtain ⟨rfl, rfl, hsig⟩ := hparts'
  exact ⟨Option.some.inj (huser.symm.trans huser'), Option.some.inj (hexp.symm.trans hexp'),
    String.toList_inj.mp hsig⟩

/-- What becomes of a token that reads. An expiry that was read can be
printed, so only the comparison raises. -/
theorem decodeToken_of_reads {token secret sig : String} {now : ℚ} {userId : UUID} {exp : ℤ}
    (h : Reads token userId exp sig) :
    decodeToken token secret now
      = if sig.toList.all isAscii = false then .error .typeError
        else if sig = sign secret (uuidText userId ++ "." ++ toString exp) ∧ now ≤ exp
          then .ok (some userId) else .ok none := by
  obtain ⟨userIdS, expS, hparts, huser, hexp⟩ := h
  have hmessage : tokenMessage userId exp = .ok (uuidText userId ++ "." ++ toString exp) := by
    unfold tokenMessage
    rw [intText_of_int? hexp]
  unfold decodeToken
  rw [hparts]
  dsimp only
  rw [huser, hexp]
  simp only [hmessage, bind, Except.bind, String.ofList_toList]
  unfold compareDigest
  rw [isAscii_sign]
  generalize sign secret (uuidText userId ++ "." ++ toString exp) = good
  cases hsig : sig.toList.all isAscii with
  | false => rfl
  | true =>
    by_cases heq : sig = good
    · by_cases hnow : now ≤ exp
      · simp [heq, hnow, pure, Except.pure]
      · simp [heq, hnow, pure, Except.pure]
    · simp [heq, pure, Except.pure]

/-- A token that does not read is no user's. It is answered with `None`,
before anything is compared. -/
theorem decodeToken_of_not_reads {token secret : String} {now : ℚ}
    (h : ¬ ∃ userId exp sig, Reads token userId exp sig) :
    decodeToken token secret now = .ok none := by
  unfold decodeToken
  split
  · next userIdS expS sig hparts =>
    split
    · next userId exp huser hexp =>
      exact absurd ⟨userId, exp, String.ofList sig, userIdS, expS, by
        rw [hparts, String.toList_ofList], huser, hexp⟩ h
    · rfl
  · rfl

/-- **A token is decoded exactly**, unless both readers accept their parts
and the third is not ASCII. Where one of the readers fails, `None` is
returned before the signatures are compared, whatever the third part
is. -/
theorem decodesExactly_iff (token secret : String) (now : ℚ) :
    DecodesExactly token secret now ↔ ¬ SignedOutsideAscii token := by
  by_cases hreads : ∃ userId exp sig, Reads token userId exp sig
  · obtain ⟨userId, exp, sig, h⟩ := hreads
    -- a token reads in one way, so these are questions about its parts
    have hgrants : ∀ userId', Grants token secret now userId' ↔ userId' = userId
        ∧ sig = sign secret (uuidText userId ++ "." ++ toString exp) ∧ now ≤ exp := by
      intro userId'
      constructor
      · rintro ⟨exp', h', hnow⟩
        obtain ⟨rfl, rfl, rfl⟩ := h.unique h'
        exact ⟨rfl, rfl, hnow⟩
      · rintro ⟨rfl, rfl, hnow⟩
        exact ⟨exp, h, hnow⟩
    have houtside : SignedOutsideAscii token ↔ sig.toList.all isAscii = false := by
      constructor
      · rintro ⟨userId', exp', sig', h', hsig⟩
        obtain ⟨rfl, rfl, rfl⟩ := h.unique h'
        exact hsig
      · exact fun hsig => ⟨userId, exp, sig, h, hsig⟩
    unfold DecodesExactly
    rw [houtside, decodeToken_of_reads h]
    split
    · next hsig => simp [hsig]
    · next hsig =>
      refine ⟨fun _ => hsig, fun _ => ?_⟩
      split
      · next hok => exact ⟨_, rfl, fun userId' => by
          rw [hgrants, and_iff_left hok, Option.some.injEq, eq_comm]⟩
      · next hnot => exact ⟨_, rfl, fun userId' => by
          rw [hgrants]
          exact iff_of_false (Option.some_ne_none _).symm fun h => hnot h.2⟩
  · refine iff_of_true ⟨none, decodeToken_of_not_reads hreads, fun userId => ?_⟩ ?_
    · refine iff_of_false (Option.some_ne_none _).symm ?_
      rintro ⟨exp, h, -⟩
      exact hreads ⟨userId, exp, _, h⟩
    · rintro ⟨userId, exp, sig, h, -⟩
      exact hreads ⟨userId, exp, sig, h⟩

/-! ## A token that was just made

It is accepted as long as it has not expired. The time in it is rounded
down to seconds, which matters for short sessions. -/

omit [DecimalDigits] in
/-- When a token is made, and which one. The expiry is printed as a
decimal number, and Python refuses to print one that is too long. -/
theorem createToken_eq_ok_iff {userId : UUID} {maxAge : ℤ} {secret token : String} {now : ℚ} :
    createToken userId maxAge secret now = .ok token
      ↔ (truncate now + maxAge).natAbs < 10 ^ intMaxStrDigits
        ∧ token = uuidText userId ++ "." ++ toString (truncate now + maxAge) ++ "."
          ++ sign secret (uuidText userId ++ "." ++ toString (truncate now + maxAge)) := by
  unfold createToken tokenMessage
  cases htext : intText (truncate now + maxAge) with
  | none =>
    have hnot : ¬ (truncate now + maxAge).natAbs < 10 ^ intMaxStrDigits := fun h => by
      rw [intText_eq_some_iff.mpr ⟨h, rfl⟩] at htext
      exact absurd htext (Option.some_ne_none _)
    simp [bind, Except.bind, hnot]
  | some text =>
    obtain ⟨hlt, rfl⟩ := intText_eq_some_iff.mp htext
    rw [and_iff_right hlt]
    simp [bind, Except.bind, pure, Except.pure, eq_comm]

/-- The three parts of a printed token: none of them has a point, and each
is read as what was printed. -/
theorem reads_printed {userId : UUID} (hid : userId < 2 ^ 128) {exp : ℤ}
    (hexp : exp.natAbs < 10 ^ intMaxStrDigits) (secret message : String) :
    Reads (uuidText userId ++ "." ++ toString exp ++ "." ++ sign secret message) userId exp
      (sign secret message) := by
  have htext : intText exp = some (toString exp) := intText_eq_some_iff.mpr ⟨hexp, rfl⟩
  have huser : '.' ∉ (uuidText userId).toList := fun h => by
    rcases mem_uuidText h with h | h
    · exact (isDigit_sixteen h).2.2.2.2.2.1 rfl
    · exact absurd h (by decide)
  have hdigits : '.' ∉ (toString exp).toList := fun h => by
    have hprinted : ∀ c ∈ Nat.toDigits 10 exp.natAbs, c ≠ '.' := fun c hc =>
      (isDigit_sixteen (isDigit_mono (by decide)
        (Numerals.isDigit_of_mem_toDigits (by decide) (by decide) hc))).2.2.2.2.2.1
    rw [toString_int, String.toList_ofList] at h
    split at h
    · rcases List.mem_cons.mp h with h | h
      · exact absurd h (by decide)
      · exact hprinted _ h rfl
    · exact hprinted _ h rfl
  have hsig : '.' ∉ (sign secret message).toList := fun h =>
    (isDigit_sixteen (Hmac.hex _ _ _ h)).2.2.2.2.2.1 rfl
  refine ⟨(uuidText userId).toList, (toString exp).toList, ?_, ?_, ?_⟩
  · have hdot : ".".toList = ['.'] := rfl
    simp only [String.toList_append, hdot, List.append_assoc, List.cons_append,
      List.nil_append]
    rw [List.splitOn_append_cons_self_of_not_mem huser,
      List.splitOn_append_cons_self_of_not_mem hdigits, List.splitOn_eq_singleton hsig]
  · rw [String.ofList_toList, uuid?_uuidText hid]
  · rw [String.ofList_toList, int?_intText htext]

/-- A new token is its user's up to the stored expiry, as soon as the
expiry can be printed. -/
theorem roundTrips_iff {userId : UUID} (hid : userId < 2 ^ 128) (maxAge : ℤ) (secret : String)
    (now : ℚ) : RoundTrips userId maxAge secret now
      ↔ (truncate now + maxAge).natAbs < 10 ^ intMaxStrDigits := by
  constructor
  · rintro ⟨token, htoken, -⟩
    exact (createToken_eq_ok_iff.mp htoken).1
  · intro hlt
    refine ⟨_, createToken_eq_ok_iff.mpr ⟨hlt, rfl⟩, fun later hlater => ?_⟩
    rw [decodeToken_of_reads (reads_printed hid hlt _ _), isAscii_sign,
      if_neg (by decide), if_pos ⟨rfl, hlater⟩]

/-- **Tokens are accepted exactly**: any token, unless both readers accept
their parts and the third is not ASCII; and a new one up to its expiry,
unless that has more digits than an integer is printed with. -/
theorem decodeToken_exact :
    (∀ token secret now, DecodesExactly token secret now ↔ ¬ SignedOutsideAscii token)
      ∧ ∀ userId < 2 ^ 128, ∀ (maxAge : ℕ) secret now,
        RoundTrips userId maxAge secret now
          ↔ (truncate now + maxAge).natAbs < 10 ^ intMaxStrDigits :=
  ⟨decodesExactly_iff, fun _ hid maxAge => roundTrips_iff hid maxAge⟩

end Session

/-! ## A cookie that raises -/

section Cookie

/-- The decimal digits of ASCII alone: all that the texts below have. -/
local instance : DecimalDigits := ⟨fun _ => none⟩

/-- The signature of `00000000-0000-0000-0000-000000000000.0` with the key
`secret`, as the number that its digits print. -/
def zeroDigest : ℕ := 0xc2e17b058b86abfc5e6f02251a8a1376445fd14b4b4140fb22be39b99727231c

local instance : Hmac where
  hexdigest _ _ := String.ofList (Nat.toDigits 16 zeroDigest)
  hex _ _ c hc := by
    rw [String.toList_ofList] at hc
    exact Numerals.isDigit_of_mem_toDigits (by decide) (by decide) hc

/-- A user and an expiry, with a letter for the signature. -/
def accentedToken : String := "00000000-0000-0000-0000-000000000000.0.é"

theorem reads_accentedToken : Reads accentedToken 0 0 "é" := by
  refine ⟨"00000000-0000-0000-0000-000000000000".toList, ['0'], ?_, ?_, ?_⟩
  · decide +kernel
  · decide +kernel
  · decide +kernel

/-- **A cookie raises** `TypeError` in place of being refused. Its user
and its time are well formed, so that the comparison is reached. -/
theorem accentedToken_raises : decodeToken accentedToken "secret" 0 = .error .typeError
    ∧ ¬ ∀ token secret now, DecodesExactly token secret now := by
  have hascii : "é".toList.all isAscii = false := by decide
  refine ⟨?_, fun h => ?_⟩
  · rw [decodeToken_of_reads reads_accentedToken, if_pos hascii]
  · exact (decodesExactly_iff _ _ _).mp (h accentedToken "secret" 0)
      ⟨0, 0, "é", reads_accentedToken, hascii⟩

/-- The same user and expiry, signed. -/
def zeroToken : String :=
  uuidText 0 ++ "." ++ toString (0 : ℤ) ++ "." ++ sign "secret" (uuidText 0 ++ ".0")

/-- A signed token is decoded, and one that was just made too. -/
theorem zeroToken_decodes : DecodesExactly zeroToken "secret" 0
    ∧ RoundTrips 0 0 "secret" 0 := by
  have hzero : Int.natAbs 0 < 10 ^ intMaxStrDigits := Nat.pow_pos (by decide)
  refine ⟨(decodeToken_exact.1 _ _ _).mpr ?_,
    (decodeToken_exact.2 0 (by decide) 0 _ _).mpr hzero⟩
  rintro ⟨userId, exp, sig, hreads, hsig⟩
  obtain ⟨-, -, rfl⟩ := hreads.unique (reads_printed (by decide) hzero "secret" _)
  rw [isAscii_sign] at hsig
  exact absurd hsig (by decide)

end Cookie

end VisionBill
