import NixPqcCache.Foundation.LastWrites
import NixPqcCache.NarinfoLengths
import NixPqcCache.SignRuns

/-!
# What many signings leave

Each signing takes the entries of its name out of both lists and appends one
new pair.  So a run of signings leaves the entries of all other names and the
pair of each name's last signing, whatever came before it, and a narinfo that
the same keys sign again and again does not grow.
-/

namespace NixPqcCache.SignNormalForm

open NixPqcCache.Commands
open NixPqcCache.Data
open NixPqcCache.Fingerprint
open NixPqcCache.Foundation
open NixPqcCache.Hybrid
open NixPqcCache.HybridCandidates
open NixPqcCache.Keys
open NixPqcCache.Narinfo
open NixPqcCache.NarinfoLengths
open NixPqcCache.NarinfoRoundTrip
open NixPqcCache.Proxy
open NixPqcCache.SignRuns
open NixPqcCache.SignatureEntries
open NixPqcCache.VerifyPolicy

variable {Rand : Type} (primitives : Primitives Rand)

/-! ## Signings as writes -/

/-- The name of a signing. -/
def name (signing : Signing Rand) : Str :=
  signing.secret.name

/-- An entry belongs to a name. -/
def owns (name entry : Str) : Bool :=
  (name ++ [':']).isPrefixOf entry

/-- The last signing of each name. -/
def lastSignings (signings : List (Signing Rand)) : List (Signing Rand) :=
  LastWrites.lastWrites name signings

/-- The `Sig` entry of a signing. -/
def sigOf (fingerprint : Str) (signing : Signing Rand) : Str :=
  sigEntry signing.secret.name (signing.signature primitives fingerprint)

/-- The `Sig-PQC` entry of a signing. -/
def sigPqcOf (fingerprint : Str) (signing : Signing Rand) : Str :=
  encodeSigPqc signing.secret.name
    (signing.signature primitives fingerprint).mlDsa

/-- The entries of nobody who signs. -/
def foreignEntries (signings : List (Signing Rand)) (entries : List Str) :
    List Str :=
  LastWrites.foreign owns name entries signings

/-- A record without the entries of the names that sign. -/
def withoutSigners (signings : List (Signing Rand)) (info : NarInfo) :
    NarInfo :=
  { info with
    sigs := foreignEntries signings info.sigs
    sigPqc := foreignEntries signings info.sigPqc }

/-- A record with the pairs of some signings appended. -/
def withPairs (fingerprint : Str) (info : NarInfo)
    (signings : List (Signing Rand)) : NarInfo :=
  { info with
    sigs := info.sigs ++ signings.map (sigOf primitives fingerprint)
    sigPqc := info.sigPqc ++ signings.map (sigPqcOf primitives fingerprint) }

/-- A record with the pair of each name's last signing. -/
def normalForm (fingerprint : Str) (info : NarInfo)
    (signings : List (Signing Rand)) : NarInfo :=
  withPairs primitives fingerprint (withoutSigners signings info)
    (lastSignings signings)

theorem owns_entryOf_iff (signing other : Signing Rand) (bytes : Bytes) :
    owns (name signing) (entryOf other.secret.name bytes) = true ↔
      name signing = name other :=
  isPrefixOf_entryOf_iff other.colon bytes

/-- A signer replaces no entries of others. -/
theorem foreignEntries_replaced {signings : List (Signing Rand)}
    {signing : Signing Rand} (member : signing ∈ signings)
    (entries : List Str) (bytes : Bytes) :
    foreignEntries signings (dropOwn signing.secret.name entries ++
        [entryOf signing.secret.name bytes]) =
      foreignEntries signings entries :=
  LastWrites.foreign_put owns name
    (fun signing : Signing Rand => entryOf signing.secret.name bytes)
    (fun signing => (owns_entryOf_iff signing signing bytes).mpr rfl) member
    entries

/-- The lists of a record after some signings. -/
theorem applyAll_eq_foldl (fingerprint : Str) (info : NarInfo)
    (signings : List (Signing Rand)) :
    applyAll primitives fingerprint info signings =
      { info with
        sigs := signings.foldl
          (LastWrites.put owns name (sigOf primitives fingerprint)) info.sigs
        sigPqc := signings.foldl
          (LastWrites.put owns name (sigPqcOf primitives fingerprint))
          info.sigPqc } := by
  induction signings generalizing info with
  | nil => rfl
  | cons signing signings induction =>
      rw [applyAll, List.foldl_cons, ← applyAll, induction]
      rfl

/-- A run of signings writes the normal form. -/
theorem applyAll_eq_normalForm (fingerprint : Str) (info : NarInfo)
    (signings : List (Signing Rand)) :
    applyAll primitives fingerprint info signings =
      normalForm primitives fingerprint info signings := by
  have sigOwned (signing other : Signing Rand) :
      owns (name signing) (sigOf primitives fingerprint other) = true ↔
        name signing = name other := by
    rw [sigOf, sigEntry_eq_entryOf]
    exact owns_entryOf_iff signing other _
  have sigPqcOwned (signing other : Signing Rand) :
      owns (name signing) (sigPqcOf primitives fingerprint other) = true ↔
        name signing = name other := by
    rw [sigPqcOf, encodeSigPqc_eq_entryOf]
    exact owns_entryOf_iff signing other _
  rw [applyAll_eq_foldl, LastWrites.foldl_put owns name _ sigOwned,
    LastWrites.foldl_put owns name _ sigPqcOwned]
  rfl

/-! ## The text of a run -/

/-- Pairs of entries make a text longer by their lengths. -/
theorem byteLength_withPairs (fingerprint : Str) (info : NarInfo)
    (signings : List (Signing Rand)) :
    byteLength (withPairs primitives fingerprint info signings).toText =
      byteLength info.toText +
        (signings.map fun signing => pairLength (name signing)).sum := by
  have pairs : withPairs primitives fingerprint info signings =
      signings.foldl (fun info signing => reSign primitives signing.secret
        signing.rand info fingerprint) info :=
    (foldl_reSign_eq _ _ fingerprint info signings).symm
  rw [pairs, byteLength_foldl_reSign Signing.secret Signing.rand]
  rfl

/-- A nonempty run writes the text of the rewritten record. -/
theorem rewriteAll_eq {signings : List (Signing Rand)} {info : NarInfo}
    {fingerprint text : Str} (holds : Holds info fingerprint text)
    (nonempty : signings ≠ []) :
    rewriteAll primitives text signings =
      .ok (applyAll primitives fingerprint info signings).toText := by
  induction signings generalizing info text with
  | nil => exact (nonempty rfl).elim
  | cons signing signings induction =>
      rw [rewriteAll, List.foldlM_cons]
      refine Runs.bind_eq_ok_iff.mpr
        ⟨_, signing.rewrite_eq primitives holds, ?_⟩
      cases signings with
      | nil => rfl
      | cons next signings =>
          exact induction (signing.holds_toText primitives holds)
            (List.cons_ne_nil _ _)

/-- The last signings of a run leave what the run leaves. -/
theorem normalForm_lastSignings (fingerprint : Str) (info : NarInfo)
    (signings : List (Signing Rand)) :
    normalForm primitives fingerprint info (lastSignings signings) =
      normalForm primitives fingerprint info signings := by
  have same : withoutSigners (lastSignings signings) info =
      withoutSigners signings info := by
    rw [withoutSigners, withoutSigners, lastSignings]
    simp only [foreignEntries, LastWrites.foreign_lastWrites]
  rw [normalForm, same, lastSignings, lastSignings,
    LastWrites.lastWrites_lastWrites, normalForm, lastSignings]

theorem lastSignings_ne_nil {signings : List (Signing Rand)}
    (nonempty : signings ≠ []) :
    lastSignings signings ≠ [] := by
  rcases List.exists_mem_of_ne_nil signings nonempty with ⟨signing, member⟩
  have known : ∃ last ∈ lastSignings signings, name last = name signing :=
    LastWrites.exists_mem_lastWrites.mpr ⟨signing, member, rfl⟩
  rcases known with ⟨last, found, -⟩
  exact List.ne_nil_of_mem found

/--
Whatever keys sign a narinfo in whatever order, the text that the last of them
writes is that of one normal form: the entries of the other names in their
order, and one pair for each name, of its last signing.  The last signings
alone write the same text, and it is longer than the narinfo without the
signers by one pair for each name.
-/
theorem sign_runs_normal_form {signings : List (Signing Rand)}
    {info : NarInfo} {fingerprint text : Str}
    (parsed : NarInfo.parse text = .ok info)
    (computed : info.fingerprint = .ok fingerprint)
    (nonempty : signings ≠ []) :
    rewriteAll primitives text signings =
        .ok (normalForm primitives fingerprint info signings).toText ∧
      rewriteAll primitives text (lastSignings signings) =
        rewriteAll primitives text signings ∧
      byteLength (normalForm primitives fingerprint info signings).toText =
        byteLength (withoutSigners signings info).toText +
          ((lastSignings signings).map
            fun signing => pairLength (name signing)).sum := by
  have holds : Holds info fingerprint text := ⟨parsed, computed⟩
  have whole := rewriteAll_eq primitives holds nonempty
  have last := rewriteAll_eq primitives holds (lastSignings_ne_nil nonempty)
  rw [applyAll_eq_normalForm] at whole last
  refine ⟨whole, ?_, byteLength_withPairs primitives fingerprint _ _⟩
  rw [last, normalForm_lastSignings, whole]

/-- The sample narinfo, signed three times by the sample key. -/
theorem sign_runs_normal_form_sample :
    ∃ final,
      rewriteAll Primitives.transparent sampleInfo.toText
          (List.replicate 3 ⟨sampleSecret, (), by decide⟩) = .ok final ∧
        byteLength final = byteLength sampleInfo.toText + 4536 := by
  have form := @sign_runs_normal_form _ Primitives.transparent
    (List.replicate 3 ⟨sampleSecret, (), by decide⟩) _ _ _
    (parse_toText sampleInfo_representable) sampleInfo_fingerprint
    (by decide)
  refine ⟨_, form.1, form.2.2.trans ?_⟩
  rfl

end NixPqcCache.SignNormalForm
