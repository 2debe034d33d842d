import TemplateInheritance.Resolution

/-!
# Keys of resolved trees

Names may hold anything, the separator included, but digests hold no colon. So a key is taken apart
in one way only, and no context shares the key of results that hold in every context.
-/

namespace TemplateInheritance

/-- The hexadecimal digits, letters in lower case. -/
def Sha256.digitChars : List Char := "0123456789abcdef".toList

/-- A hash is written in hexadecimal digits. -/
theorem Sha256.mem_hexDigest {message : List UInt8} {c : Char} (hmem : c ∈ hexDigest message) :
    c ∈ digitChars := by
  simp only [hexDigest, wordDigits, List.mem_flatMap, List.mem_map] at hmem
  obtain ⟨word, -, i, -, rfl⟩ := hmem
  exact (by decide : ∀ n < 16, Nat.digitChar n ∈ digitChars) _ (Nat.mod_lt _ (by decide))

theorem Sha256.length_hexDigest (message : List UInt8) : (hexDigest message).length = 64 := by
  simp [hexDigest, State.toList, wordDigits]

/-- What can stand behind the separator of a key: the word for results that hold in every context,
the word for the context without bindings, or sixteen hexadecimal digits. -/
inductive KeyDigest (digest : String) : Prop where
  | fixed (hword : digest = staticDigest)
  | empty (hword : digest = Context.emptyDigest)
  | digits (hlength : digest.length = Context.digestLength)
      (hdigits : ∀ c ∈ digest.toList, c ∈ Sha256.digitChars)

theorem keyDigest_staticDigest : KeyDigest staticDigest := .fixed rfl

theorem KeyDigest.colon_notMem {digest : String} (hdigest : KeyDigest digest) :
    ':' ∉ digest.toList := by
  cases hdigest with
  | fixed hword =>
    rw [hword]
    decide
  | empty hword =>
    rw [hword]
    decide
  | digits _ hdigits =>
    intro hmem
    exact absurd (hdigits ':' hmem) (by decide)

namespace Context

/-- A digest is a fixed word or sixteen hexadecimal digits. -/
theorem digest_eq_or_digits (context : Context) :
    context.digest = emptyDigest ∨ context.digest.length = digestLength ∧
      ∀ c ∈ context.digest.toList, c ∈ Sha256.digitChars := by
  unfold digest
  split
  · exact .inl rfl
  · right
    constructor
    · rw [String.length_ofList, List.length_take, Sha256.length_hexDigest]
      rfl
    · intro c hmem
      rw [String.toList_ofList] at hmem
      exact Sha256.mem_hexDigest (List.mem_of_mem_take hmem)

/-- A full digest is a fixed word or consists of hexadecimal digits. -/
theorem fullDigest_eq_or_digits (context : Context) :
    context.fullDigest = emptyDigest ∨
      ∀ c ∈ context.fullDigest.toList, c ∈ Sha256.digitChars := by
  unfold fullDigest
  split
  · exact .inl rfl
  · right
    intro c hmem
    rw [String.toList_ofList] at hmem
    exact Sha256.mem_hexDigest hmem

theorem keyDigest_digest (context : Context) : KeyDigest context.digest := by
  rcases context.digest_eq_or_digits with hempty | ⟨hlength, hdigits⟩
  · exact .empty hempty
  · exact .digits hlength hdigits

/-- A digest holds no colon. -/
theorem colon_notMem_digest (context : Context) : ':' ∉ context.digest.toList :=
  context.keyDigest_digest.colon_notMem

private theorem ne_static_of_digits {digest : String}
    (hdigest : digest = emptyDigest ∨ ∀ c ∈ digest.toList, c ∈ Sha256.digitChars) :
    digest ≠ staticDigest := by
  rintro rfl
  rcases hdigest with hempty | hdigits
  · exact absurd hempty (by decide)
  · exact absurd (hdigits 's' (by decide)) (by decide)

/-- No context has the digest of results that hold in every context. -/
theorem digest_ne_static (context : Context) : context.digest ≠ staticDigest :=
  ne_static_of_digits (context.digest_eq_or_digits.imp_right And.right)

/-- No context has the full digest of results that hold in every context. -/
theorem fullDigest_ne_static (context : Context) : context.fullDigest ≠ staticDigest :=
  ne_static_of_digits context.fullDigest_eq_or_digits

end Context

theorem colon_notMem_staticDigest : ':' ∉ staticDigest.toList :=
  keyDigest_staticDigest.colon_notMem

namespace Hierarchy

variable (h : Hierarchy) (context context' : Context)

theorem keyDigest_keptDigest : KeyDigest (h.keptDigest context) := by
  unfold keptDigest
  split
  · exact context.keyDigest_digest
  · exact keyDigest_staticDigest

/-- No result is kept under a digest with a colon. -/
theorem colon_notMem_keptDigest : ':' ∉ (h.keptDigest context).toList :=
  (h.keyDigest_keptDigest context).colon_notMem

variable {h context context'}

theorem keptDigest_of_static (hstatic : h.isDynamic = false) :
    h.keptDigest context = staticDigest := by
  rw [keptDigest, hstatic]
  rfl

theorem keptDigest_of_dynamic (hdynamic : h.isDynamic = true) :
    h.keptDigest context = context.digest := by
  rw [keptDigest, if_pos hdynamic]

theorem keptFullDigest_of_static (hstatic : h.isDynamic = false) :
    h.keptFullDigest context = staticDigest := by
  rw [keptFullDigest, hstatic]
  rfl

theorem keptFullDigest_of_dynamic (hdynamic : h.isDynamic = true) :
    h.keptFullDigest context = context.fullDigest := by
  rw [keptFullDigest, if_pos hdynamic]

/-- The fixed digest is for hierarchies that no context can change. -/
theorem keptDigest_eq_static_iff : h.keptDigest context = staticDigest ↔ h.isDynamic = false := by
  cases hdynamic : h.isDynamic with
  | false => simp [keptDigest_of_static hdynamic]
  | true => simp [keptDigest_of_dynamic hdynamic, context.digest_ne_static]

/-- The digest of a context is for hierarchies that another context may change. -/
theorem keptDigest_eq_digest_iff :
    h.keptDigest context = context'.digest ↔
      h.isDynamic = true ∧ context.digest = context'.digest := by
  cases hdynamic : h.isDynamic with
  | false => simp [keptDigest_of_static hdynamic, context'.digest_ne_static.symm]
  | true => simp [keptDigest_of_dynamic hdynamic]

theorem keptFullDigest_eq_static_iff :
    h.keptFullDigest context = staticDigest ↔ h.isDynamic = false := by
  cases hdynamic : h.isDynamic with
  | false => simp [keptFullDigest_of_static hdynamic]
  | true => simp [keptFullDigest_of_dynamic hdynamic, context.fullDigest_ne_static]

theorem keptFullDigest_eq_fullDigest_iff :
    h.keptFullDigest context = context'.fullDigest ↔
      h.isDynamic = true ∧ context.fullDigest = context'.fullDigest := by
  cases hdynamic : h.isDynamic with
  | false => simp [keptFullDigest_of_static hdynamic, context'.fullDigest_ne_static.symm]
  | true => simp [keptFullDigest_of_dynamic hdynamic]

end Hierarchy

private theorem takeWhile_reverse_resolvedKey (name : String) {digest : String}
    (hdigest : ':' ∉ digest.toList) :
    (resolvedKey name digest).toList.reverse.takeWhile (· ≠ ':') = digest.toList.reverse := by
  have hkey : (resolvedKey name digest).toList.reverse =
      digest.toList.reverse ++ ':' :: ':' :: name.toList.reverse := by
    simp [resolvedKey, keySeparator]
  rw [hkey, List.takeWhile_append_of_pos fun c hmem ↦ ?_]
  · simp
  · have hne : c ≠ ':' := by
      rintro rfl
      exact hdigest (List.mem_reverse.mp hmem)
    simpa using hne

/-- A key without a colon in its digest determines name and digest. -/
theorem resolvedKey_inj {name name' digest digest' : String} (hdigest : ':' ∉ digest.toList)
    (hdigest' : ':' ∉ digest'.toList) (heq : resolvedKey name digest = resolvedKey name' digest') :
    name = name' ∧ digest = digest' := by
  have hreverse : digest.toList.reverse = digest'.toList.reverse := by
    rw [← takeWhile_reverse_resolvedKey name hdigest, heq,
      takeWhile_reverse_resolvedKey name' hdigest']
  have hdigests : digest = digest' := String.toList_inj.mp (List.reverse_inj.mp hreverse)
  subst hdigests
  refine ⟨?_, rfl⟩
  have hkeys := congrArg String.toList heq
  exact String.toList_inj.mp (by simpa [resolvedKey, keySeparator] using hkeys)

/-- No result for one context has the key of a result that holds in every context. -/
theorem resolvedKey_digest_ne_static (name name' : String) (context : Context) :
    resolvedKey name context.digest ≠ resolvedKey name' staticDigest := by
  intro heq
  obtain ⟨-, hdigest⟩ := resolvedKey_inj context.colon_notMem_digest colon_notMem_staticDigest heq
  exact context.digest_ne_static hdigest

end TemplateInheritance
