import Mathlib.Data.List.Infix

/-! # Replacing all matches in a text

    A global replacement scans a text from the left.  Where something matches,
    a part of the match may be kept, the rest gives way to a mark, and the scan
    goes on behind it. -/

namespace Replacement

variable {α : Type*}

/-- A match: what is kept of it, and what the mark stands for. -/
structure Match (α : Type*) where
  kept : List α
  lost : List α

/-- The scan, behind `prev`; `skip` letters belong to the last match. -/
def replace (matchAt : Option α → List α → Option (Match α)) (mark : List α) :
    Option α → Nat → List α → List α
  | _, _, [] => []
  | _, skip + 1, u :: us => replace matchAt mark (some u) skip us
  | prev, 0, u :: us =>
    match matchAt prev (u :: us) with
    | none => u :: replace matchAt mark (some u) 0 us
    | some m =>
      m.kept ++ mark ++ replace matchAt mark (some u) (m.kept.length + m.lost.length - 1) us

/-- The steps of a scan. -/
inductive Replaces (matchAt : Option α → List α → Option (Match α)) (mark : List α) :
    Option α → List α → List α → Prop where
  | nil (prev) : Replaces matchAt mark prev [] []
  | next (prev u us out) : matchAt prev (u :: us) = none →
      Replaces matchAt mark (some u) us out → Replaces matchAt mark prev (u :: us) (u :: out)
  | found (prev kept lost post out) :
      matchAt prev (kept ++ lost ++ post) = some ⟨kept, lost⟩ → lost ≠ [] →
      Replaces matchAt mark lost.getLast? post out →
      Replaces matchAt mark prev (kept ++ lost ++ post) (kept ++ mark ++ out)

/-- A match is one of what is ahead, and takes something away. -/
def Sound (matchAt : Option α → List α → Option (Match α)) : Prop :=
  ∀ prev text m, matchAt prev text = some m → m.lost ≠ [] ∧ ∃ post, text = m.kept ++ m.lost ++ post

variable {matchAt : Option α → List α → Option (Match α)} {mark : List α}

theorem replace_skip (u : α) (taken post : List α) :
    replace matchAt mark (some u) taken.length (taken ++ post) =
      replace matchAt mark (u :: taken).getLast? 0 post := by
  induction taken generalizing u with
  | nil => rfl
  | cons v vs ih =>
    rw [List.getLast?_cons_cons]
    exact ih v

theorem replace_replaces (hsound : Sound matchAt) (mark : List α) (prev : Option α)
    (text : List α) :
    Replaces matchAt mark prev text (replace matchAt mark prev 0 text) := by
  induction hn : text.length using Nat.strong_induction_on generalizing prev text with
  | _ n ih =>
    cases text with
    | nil => exact .nil prev
    | cons u us =>
      unfold replace
      -- without a match one element is copied, with one the search goes on behind it
      cases hmatch : matchAt prev (u :: us) with
      | none =>
        have hlt : us.length < n := by simp [← hn]
        exact .next prev u us _ hmatch (ih _ hlt _ us rfl)
      | some m =>
        obtain ⟨kept, lost⟩ := m
        obtain ⟨hlost, post, htext⟩ := hsound prev _ _ hmatch
        dsimp only at hlost htext ⊢
        have hlength : 0 < lost.length := List.length_pos_iff.mpr hlost
        have hskip : replace matchAt mark (some u) (kept.length + lost.length - 1) us =
            replace matchAt mark lost.getLast? 0 post := by
          have hmatched : kept ++ lost ≠ [] := by simp [hlost]
          obtain ⟨v, taken, htaken⟩ := List.exists_cons_of_ne_nil hmatched
          rw [htaken] at htext
          obtain ⟨rfl, rfl⟩ := List.cons.inj htext
          have hlength := congrArg List.length htaken
          rw [List.length_append, List.length_cons] at hlength
          show replace matchAt mark (some u) _ (taken ++ post) = _
          rw [hlength, Nat.add_sub_cancel, replace_skip, ← htaken,
            List.getLast?_append_of_ne_nil _ hlost]
        have hlt : post.length < n := by
          have hlengths := congrArg List.length htext
          simp only [List.length_append] at hlengths
          omega
        rw [hskip, htext]
        rw [htext] at hmatch
        exact .found prev kept lost post _ hmatch hlost (ih _ hlt _ post rfl)

/-! ### What is ahead of a mark -/

/-- A word without the letter `c` that starts in front of `c` ends there. -/
theorem prefix_append_cons {s a b : List α} {c : α} (h : s <+: a ++ c :: b) (hc : c ∉ s) :
    s <+: a := by
  induction a generalizing s with
  | nil =>
    cases s with
    | nil => exact List.nil_prefix
    | cons x s =>
      obtain ⟨rfl, -⟩ := List.cons_prefix_cons.mp h
      simp at hc
  | cons y a ih =>
    cases s with
    | nil => exact List.nil_prefix
    | cons x s =>
      obtain ⟨rfl, hrest⟩ := List.cons_prefix_cons.mp h
      exact List.cons_prefix_cons.mpr ⟨rfl, ih hrest fun hmem => hc (List.mem_cons_of_mem _ hmem)⟩

/-- A word without the letter `c` does not reach across `c`. -/
theorem infix_append_cons {s a b : List α} {c : α} (h : s <:+: a ++ c :: b) (hc : c ∉ s) :
    s <:+: a ∨ s <:+: b := by
  induction a with
  | nil =>
    rcases List.infix_cons_iff.mp h with hfront | hpart
    · exact .inl (prefix_append_cons (a := []) hfront hc).isInfix
    · exact .inr hpart
  | cons x a ih =>
    rcases List.infix_cons_iff.mp h with hfront | hpart
    · exact .inl (prefix_append_cons (a := x :: a) hfront hc).isInfix
    · exact (ih hpart).imp_left fun h => h.trans (List.suffix_cons x a).isInfix

section replaces
variable {prev : Option α} {text out : List α}

/-- What is in front of the first mark is in front of the text; what follows it
    follows there, or is the mark, which stands for something of the text. -/
theorem Replaces.prefix_next {c : α} (hmark : mark.head? = some c) {P : α → Prop}
    (hlost : ∀ prev text m, matchAt prev text = some m → ∀ y ∈ m.lost.head?, P y)
    (h : Replaces matchAt mark prev text out) {w : List α} {x : α} {more : List α}
    (hout : out = w ++ x :: more) (hc : c ∉ w) :
    ∃ y rest, text = w ++ y :: rest ∧ (y = x ∨ P y) := by
  -- up to the first element of the mark, the text is copied unless it was lost to a match
  induction h generalizing w with
  | nil => simp at hout
  | next prev u us out hnone _ ih =>
    cases w with
    | nil =>
      obtain ⟨rfl, -⟩ := List.cons.inj hout
      exact ⟨u, us, rfl, .inl rfl⟩
    | cons v w =>
      obtain ⟨rfl, hrest⟩ := List.cons.inj hout
      have hw : c ∉ w := fun hmem => hc (List.mem_cons_of_mem _ hmem)
      obtain ⟨y, rest, rfl, hy⟩ := ih hrest hw
      exact ⟨y, rest, rfl, hy⟩
  | found prev kept lost post out hmatch hne _ ih =>
    obtain ⟨mark', rfl⟩ : ∃ mark', mark = c :: mark' := by
      cases mark with
      | nil => cases hmark
      | cons d mark' =>
        obtain rfl := Option.some.inj hmark
        exact ⟨mark', rfl⟩
    obtain ⟨y, lost, rfl⟩ := List.exists_cons_of_ne_nil hne
    have hy : P y := hlost _ _ _ hmatch y rfl
    have hw : w <+: kept := by
      refine prefix_append_cons (b := mark' ++ out) ?_ hc
      rw [← List.cons_append, ← List.append_assoc, hout]
      exact List.prefix_append _ _
    obtain ⟨between, rfl⟩ := hw
    cases between with
    | nil => exact ⟨y, lost ++ post, by simp, .inr hy⟩
    | cons z between =>
      simp only [List.append_assoc, List.append_cancel_left_eq, List.cons_append] at hout
      obtain ⟨rfl, -⟩ := List.cons.inj hout
      exact ⟨z, between ++ y :: lost ++ post, by simp, .inl rfl⟩

/-- A word without the first letter of the mark starts where it started before. -/
theorem Replaces.prefix_text {c : α} {rest : List α}
    (h : Replaces matchAt (c :: rest) prev text out)
    {s : List α} (hs : s <+: out) (hc : c ∉ s) : s <+: text := by
  induction h generalizing s with
  | nil => exact hs
  | next prev u us out _ _ ih =>
    cases s with
    | nil => exact List.nil_prefix
    | cons v s =>
      obtain ⟨rfl, htail⟩ := List.cons_prefix_cons.mp hs
      have hrest := ih htail fun hmem => hc (List.mem_cons_of_mem _ hmem)
      exact List.cons_prefix_cons.mpr ⟨rfl, hrest⟩
  | found prev kept lost post out =>
    rw [List.append_assoc, List.cons_append] at hs
    have hkept := prefix_append_cons hs hc
    rw [List.append_assoc]
    exact hkept.trans (List.prefix_append _ _)

/-- A word in a text with a mark, which fits neither across an end of the mark
    nor into it. -/
theorem infix_mark {s kept body out : List α} {c d : α}
    (h : s <:+: kept ++ (c :: body ++ [d]) ++ out) (hc : c ∉ s) (hd : d ∉ s)
    (hbody : ¬ s <:+: body) : s <:+: kept ∨ s <:+: out := by
  have hopen : s <:+: kept ++ c :: (body ++ d :: out) := by simpa using h
  rcases infix_append_cons hopen hc with hkept | hrest
  · exact .inl hkept
  · exact (infix_append_cons hrest hd).imp_left fun h => absurd h hbody

/-- A word that fits neither across an end of the mark nor into it has been
    there before. -/
theorem Replaces.infix_text {body : List α} {c d : α}
    (h : Replaces matchAt (c :: body ++ [d]) prev text out) {s : List α} (hs : s <:+: out)
    (hc : c ∉ s) (hd : d ∉ s) (hbody : ¬ s <:+: body) : s <:+: text := by
  induction h with
  | nil => exact hs
  | next prev u us out hnone hrest ih =>
    rcases List.infix_cons_iff.mp hs with hfront | hpart
    · exact ((Replaces.next prev u us out hnone hrest).prefix_text hfront hc).isInfix
    · exact (ih hpart).trans (List.suffix_cons u us).isInfix
  | found prev kept lost post out _ _ _ ih =>
    rcases infix_mark hs hc hd hbody with hkept | hout
    · rw [List.append_assoc]
      exact hkept.trans (List.prefix_append _ _).isInfix
    · exact (ih hout).trans (List.suffix_append _ _).isInfix

end replaces

/-! ### Words -/

section words
variable [DecidableEq α]

def word (search : List α) (_ : Option α) (text : List α) : Option (Match α) :=
  if search.isPrefixOf text then some ⟨[], search⟩ else none

/-- The replacement of all occurrences of a word; the empty one occurs between
    all letters. -/
def replaceAll (search mark text : List α) : List α :=
  if search = [] then mark ++ text.flatMap fun u => u :: mark
  else replace (word search) mark none 0 text

theorem sound_word {search : List α} (h : search ≠ []) : Sound (word search) := by
  intro prev text m hmatch
  unfold word at hmatch
  obtain ⟨hfront, ⟨⟩⟩ := Option.ite_none_right_eq_some.mp hmatch
  obtain ⟨post, rfl⟩ := List.isPrefixOf_iff_prefix.mp hfront
  exact ⟨h, post, rfl⟩

variable {search mark body text s : List α} {c d : α}

theorem replaceAll_replaces (h : search ≠ []) (mark text : List α) :
    Replaces (word search) mark none text (replaceAll search mark text) := by
  rw [replaceAll, if_neg h]
  exact replace_replaces (sound_word h) mark none text

/-- The replaced word occurs no more, if it fits neither across an end of the
    mark nor into it. -/
theorem not_infix_replaceAll (h : search ≠ []) (hc : c ∉ search) (hd : d ∉ search)
    (hbody : ¬ search <:+: body) : ¬ search <:+: replaceAll search (c :: body ++ [d]) text := by
  have hscan := replaceAll_replaces h (c :: body ++ [d]) text
  generalize replaceAll search (c :: body ++ [d]) text = out at hscan
  generalize (none : Option α) = prev at hscan
  intro hs
  induction hscan with
  | nil => exact h (List.infix_nil.mp hs)
  | next prev u us out hnone hrest ih =>
    rcases List.infix_cons_iff.mp hs with hfront | hpart
    · have hstood := (Replaces.next prev u us out hnone hrest).prefix_text hfront hc
      rw [word, if_pos (List.isPrefixOf_iff_prefix.mpr hstood)] at hnone
      cases hnone
    · exact ih hpart
  | found prev kept lost post out hmatch _ _ ih =>
    unfold word at hmatch
    obtain ⟨-, heq⟩ := Option.ite_none_right_eq_some.mp hmatch
    obtain ⟨rfl, -⟩ := Match.mk.inj (Option.some.inj heq)
    rcases infix_mark hs hc hd hbody with hkept | hout
    · exact h (List.infix_nil.mp hkept)
    · exact ih hout

/-- A word occurs after the replacement of another one only if it did before,
    if it fits neither across an end of the mark nor into it. -/
theorem infix_of_replaceAll (h : search ≠ [])
    (hs : s <:+: replaceAll search (c :: body ++ [d]) text) (hc : c ∉ s) (hd : d ∉ s)
    (hbody : ¬ s <:+: body) : s <:+: text :=
  (replaceAll_replaces h _ text).infix_text hs hc hd hbody

end words

end Replacement
