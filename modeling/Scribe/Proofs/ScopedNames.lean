import Mathlib.Data.List.Chain
import Scribe.Proofs.Trimming
import Scribe.Text.Scoped

/-! Names put together of scopes. A double colon between two names cuts where it stands, unless
the first one ends in a colon itself; so one plain name for the whole is made of plain names for
its parts. A plain name has no double colon and no blanks at its ends, and is its own plain name. -/
namespace Scribe
namespace Text
open Lexing

theorem scopeParts_ne_nil (cs : List Char) : scopeParts cs ≠ [] := by
  fun_cases scopeParts cs with
  | case1 => simp
  | case2 cs => simp
  | case3 c cs => cases scopeParts cs <;> simp [consPart]

theorem consPart_append (c : Char) {parts : List (List Char)} (h : parts ≠ [])
    (more : List (List Char)) : consPart c (parts ++ more) = consPart c parts ++ more := by
  cases parts with
  | nil => exact absurd rfl h
  | cons part rest => rfl

theorem scopeParts_cons {c : Char} {cs : List Char} (h : c = ':' → cs.head? ≠ some ':') :
    scopeParts (c :: cs) = consPart c (scopeParts cs) := by
  rw [scopeParts]
  rintro rest rfl rfl
  exact h rfl rfl

theorem scopeParts_append {cs : List Char} (h : cs.getLast? ≠ some ':') (ds : List Char) :
    scopeParts (cs ++ ':' :: ':' :: ds) = scopeParts cs ++ scopeParts ds := by
  fun_induction scopeParts cs with
  | case1 => rfl
  | case2 cs ih =>
    have hrest : cs.getLast? ≠ some ':' := by
      cases cs with
      | nil => simp
      | cons c cs => simpa using h
    rw [List.cons_append,List.cons_append,scopeParts,ih hrest,List.cons_append]
  | case3 c cs hpair ih =>
    cases cs with
    | nil =>
      -- The last character is no colon, so it cannot pair up with the first colon behind it.
      have hcolon : c ≠ ':' := by simpa using h
      rw [List.cons_append,List.nil_append,scopeParts_cons fun hc => absurd hc hcolon]
      rfl
    | cons d cs =>
      have hrest : (d :: cs).getLast? ≠ some ':' := by simpa using h
      have hcut : c = ':' → (d :: (cs ++ ':' :: ':' :: ds)).head? ≠ some ':' := by
        rintro rfl hd
        exact hpair cs rfl (by simpa using hd)
      rw [List.cons_append,List.cons_append,scopeParts_cons hcut,← List.cons_append,ih hrest,
        consPart_append c (scopeParts_ne_nil _)]

theorem scopeNames_append {s : String} (h : s.toList.getLast? ≠ some ':') (t : String) :
    scopeNames (s ++ "::" ++ t) = scopeNames s ++ scopeNames t := by
  have hchars : (s ++ "::" ++ t).toList = s.toList ++ ':' :: ':' :: t.toList := by simp
  simp only [scopeNames,hchars,scopeParts_append h,List.map_append,List.filter_append]

theorem scopeNames_join {names : List String} (h : ∀ t ∈ names, t.toList.getLast? ≠ some ':')
    (x : String) :
    scopeNames (join "::" (names ++ [x])) = (names.map scopeNames).flatten ++ scopeNames x := by
  induction names with
  | nil => rfl
  | cons t names ih =>
    obtain ⟨ht,hnames⟩ := List.forall_mem_cons.1 h
    rw [List.cons_append,join_cons "::" t (by simp),scopeNames_append ht,ih hnames,List.map_cons,
      List.flatten_cons,List.append_assoc]

/-- The plain name for a name in scopes is put together of the plain names of the scopes. -/
theorem flattenScopes_join {names : List String} {x : String}
    (hcolon : ∀ t ∈ names, t.toList.getLast? ≠ some ':')
    (hnames : ∀ t ∈ names, flattenScopes t ≠ "") (hx : flattenScopes x ≠ "") :
    flattenScopes (join "::" (names ++ [x])) =
      join "_" (names.map flattenScopes ++ [flattenScopes x]) := by
  have hgroups : (names.map scopeNames ++ [scopeNames x]).filter (!·.isEmpty) =
      names.map scopeNames ++ [scopeNames x] := by
    have hne : ∀ t, flattenScopes t ≠ "" → scopeNames t ≠ [] := by
      intro t ht hnil
      exact ht (by rw [flattenScopes,hnil,join_nil])
    rw [List.filter_eq_self]
    simp only [List.mem_append,List.mem_map,List.mem_singleton]
    rintro group (⟨t,ht,rfl⟩ | rfl)
    · simpa using hne t (hnames t ht)
    · simpa using hne x hx
  calc flattenScopes (join "::" (names ++ [x]))
      = join "_" (names.map scopeNames ++ [scopeNames x]).flatten := by
        rw [flattenScopes,scopeNames_join hcolon,List.flatten_append,List.flatten_singleton]
    _ = join "_" ((names.map scopeNames ++ [scopeNames x]).map (join "_")) := by
        rw [join_flatten,hgroups]
    _ = join "_" (names.map flattenScopes ++ [flattenScopes x]) := by
        rw [List.map_append,List.map_map]
        rfl

section Plain

/-- No two colons in a row. -/
def Uncut (cs : List Char) : Prop := cs.IsChain fun c d => c = ':' → d ≠ ':'

theorem uncut_iff {cs : List Char} : Uncut cs ↔ ¬[':',':'] <:+: cs := by
  constructor
  · intro h hpair
    have hcolons : Uncut [':',':'] := List.IsChain.infix h hpair
    simp [Uncut] at hcolons
  · intro h
    induction cs with
    | nil => exact .nil
    | cons c cs ih =>
      rw [List.infix_cons_iff,not_or] at h
      refine List.isChain_cons.2 ⟨?_,ih h.2⟩
      rintro d hd rfl rfl
      obtain ⟨rest,rfl⟩ := List.head?_eq_some_iff.1 hd
      exact h.1 ⟨rest,rfl⟩

theorem scopeParts_of_uncut {cs : List Char} (h : Uncut cs) : scopeParts cs = [cs] := by
  induction cs with
  | nil => rfl
  | cons c cs ih =>
    obtain ⟨hhead,hrest⟩ := List.isChain_cons.1 h
    rw [scopeParts_cons fun hc hd => hhead ':' hd hc rfl,ih hrest,consPart]

theorem head?_of_scopeParts {cs part : List Char} {rest : List (List Char)}
    (h : scopeParts cs = part :: rest) : ∀ c ∈ part.head?, c ∈ cs.head? := by
  fun_cases scopeParts cs with
  | case1 =>
    obtain ⟨rfl,-⟩ := List.cons.inj h
    simp
  | case2 cs =>
    rw [scopeParts] at h
    obtain ⟨rfl,-⟩ := List.cons.inj h
    simp
  | case3 c cs hpair =>
    rw [scopeParts] at h
    · cases hparts : scopeParts cs with
      | nil => exact absurd hparts (scopeParts_ne_nil cs)
      | cons first others =>
        rw [hparts,consPart] at h
        obtain ⟨rfl,-⟩ := List.cons.inj h
        simp
    · exact hpair

theorem uncut_of_mem_scopeParts {cs part : List Char} (h : part ∈ scopeParts cs) : Uncut part := by
  fun_induction scopeParts cs generalizing part with
  | case1 =>
    obtain rfl := List.mem_singleton.1 h
    exact .nil
  | case2 cs ih =>
    rcases List.mem_cons.1 h with rfl | hrest
    · exact .nil
    · exact ih hrest
  | case3 c cs hpair ih =>
    cases hparts : scopeParts cs with
    | nil => exact absurd hparts (scopeParts_ne_nil cs)
    | cons first rest =>
      rw [hparts] at h ih
      rcases List.mem_cons.1 h with rfl | hrest
      · -- A colon in front of the first part is followed by one only if it was so in the text.
        refine List.isChain_cons.2 ⟨?_,ih List.mem_cons_self⟩
        rintro d hd rfl rfl
        obtain ⟨behind,rfl⟩ := List.head?_eq_some_iff.1 (head?_of_scopeParts hparts _ hd)
        exact hpair behind rfl rfl
      · exact ih (List.mem_cons_of_mem _ hrest)

theorem Uncut.append_underscore {xs ys : List Char} (hx : Uncut xs) (hy : Uncut ys) :
    Uncut (xs ++ ('_' :: ys)) :=
  List.isChain_append.2 ⟨hx,List.isChain_cons.2 ⟨by simp,hy⟩,by simp⟩

theorem of_mem_scopeNames {s name : String} (h : name ∈ scopeNames s) :
    Uncut name.toList ∧ Solid name.toList := by
  simp only [scopeNames,List.mem_map,List.mem_filter] at h
  obtain ⟨cs,⟨⟨part,hpart,rfl⟩,hne⟩,rfl⟩ := h
  rw [String.toList_ofList]
  have huncut : Uncut (trimChars part) :=
    List.IsChain.infix (uncut_of_mem_scopeParts hpart) (trimChars_isInfix part)
  exact ⟨huncut,solid_trimChars (by simpa using hne)⟩

theorem of_scopeNames_ne_nil {s : String} (h : scopeNames s ≠ []) :
    Uncut (flattenScopes s).toList ∧ Solid (flattenScopes s).toList := by
  refine join_of_append "_" h (fun _ hname => of_mem_scopeNames hname) ?_
  rintro name rest ⟨huncut,hsolid⟩ ⟨huncut',hsolid'⟩
  have hchars : (name ++ "_" ++ rest).toList = name.toList ++ (['_'] ++ rest.toList) := by simp
  rw [hchars]
  exact ⟨huncut.append_underscore huncut',hsolid.append ['_'] hsolid'⟩

theorem flattenScopes_eq_empty_iff {s : String} : flattenScopes s = "" ↔ scopeNames s = [] := by
  constructor
  · intro h
    by_contra hne
    exact (of_scopeNames_ne_nil hne).2.ne_nil (by simp [h])
  · intro h
    rw [flattenScopes,h,join_nil]

theorem flattenScopes_plain (s : String) : flattenScopes s = "" ∨
    Uncut (flattenScopes s).toList ∧ Solid (flattenScopes s).toList := by
  by_cases h : scopeNames s = []
  · exact .inl (flattenScopes_eq_empty_iff.2 h)
  · exact .inr (of_scopeNames_ne_nil h)

theorem flattenScopes_of_uncut {s : String} (h : Uncut s.toList) : flattenScopes s = trim s := by
  rw [flattenScopes,scopeNames,scopeParts_of_uncut h,trim]
  by_cases hnil : trimChars s.toList = [] <;> simp [hnil]

theorem flattenScopes_flattenScopes (s : String) :
    flattenScopes (flattenScopes s) = flattenScopes s := by
  rcases flattenScopes_plain s with hempty | ⟨huncut,hsolid⟩
  · rw [hempty]
    rfl
  · rw [flattenScopes_of_uncut huncut,trim_of_solid hsolid]

theorem flattenScopes_append {s : String} (h : s.toList.getLast? ≠ some ':') (t : String) :
    flattenScopes (s ++ "::" ++ t) =
      if flattenScopes s = "" then flattenScopes t
      else if flattenScopes t = "" then flattenScopes s
      else flattenScopes s ++ "_" ++ flattenScopes t := by
  rw [flattenScopes,scopeNames_append h]
  simp only [flattenScopes_eq_empty_iff]
  split_ifs with hs ht
  · rw [hs,List.nil_append,flattenScopes]
  · rw [ht,List.append_nil,flattenScopes]
  · exact join_append "_" hs ht

/-- A plain name has no double colon and no blanks at its ends, and stays what it is. Of a text
without double colons it is the text itself, trimmed; for two texts with a double colon between
them it is made of the plain names of the two, unless the colons of the first run into it. -/
theorem flattenScopes_plain_and_append (s : String) :
    ¬[':',':'] <:+: (flattenScopes s).toList ∧
    (∀ c ∈ (flattenScopes s).toList.head?, isBlank c = false) ∧
    (∀ c ∈ (flattenScopes s).toList.getLast?, isBlank c = false) ∧
    flattenScopes (flattenScopes s) = flattenScopes s ∧
    (¬[':',':'] <:+: s.toList → flattenScopes s = trim s) ∧
    (s.toList.getLast? ≠ some ':' → ∀ t, flattenScopes (s ++ "::" ++ t) =
      if flattenScopes s = "" then flattenScopes t
      else if flattenScopes t = "" then flattenScopes s
      else flattenScopes s ++ "_" ++ flattenScopes t) := by
  have hagain := flattenScopes_flattenScopes s
  have htrim : ¬[':',':'] <:+: s.toList → flattenScopes s = trim s := fun h =>
    flattenScopes_of_uncut (uncut_iff.2 h)
  rcases flattenScopes_plain s with hempty | ⟨huncut,⟨c,hc,hfirst⟩,⟨d,hd,hlast⟩⟩
  · refine ⟨?_,?_,?_,hagain,htrim,flattenScopes_append⟩ <;> simp [hempty]
  · refine ⟨uncut_iff.1 huncut,?_,?_,hagain,htrim,flattenScopes_append⟩
    · intro e he
      obtain rfl := Option.mem_unique hc he
      exact hfirst
    · intro e he
      obtain rfl := Option.mem_unique hd he
      exact hlast

theorem flattenScopes_append_tripleColon :
    "::a ::: b".toList.getLast? ≠ some ':' ∧
    flattenScopes ("::a ::: b" ++ "::" ++ " ::\tc") = "a_: b_c" := by
  have hcolon : "::a ::: b".toList.getLast? ≠ some ':' := by decide
  obtain ⟨-,-,-,-,-,happend⟩ := flattenScopes_plain_and_append "::a ::: b"
  exact ⟨hcolon,(happend hcolon " ::\tc").trans (by decide)⟩

end Plain

end Text
end Scribe
