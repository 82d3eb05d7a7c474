import RepoAtlas.Proofs.Text.Cutting
import RepoAtlas.Proofs.Text.Exchange
import RepoAtlas.Repository.Address

/-!
# Whether the cloned repository is the one that is told

What is cloned is read off the first parts of an address, what is told about it off the last two, where every
`.git` in the name is removed.
-/

namespace RepoAtlas.Repository

/-- An address to clone from: a scheme, the host, an owner and a name. -/
structure IsCloneAddress (address scheme owner name : String) : Prop where
  scheme_eq : scheme = "https://" ∨ scheme = "http://"
  owner_part : '/' ∉ owner.toList
  name_part : '/' ∉ name.toList
  address_eq : address = scheme ++ "github.com/" ++ owner ++ "/" ++ name

/-- An address ends in an owner and a name, with nothing but slashes after them. -/
def EndsIn (address owner name : String) : Prop :=
  name ≠ "" ∧ '/' ∉ name.toList ∧ ∃ front n, (front = "" ∨ Text.ends front "/" = true) ∧
    address = front ++ owner ++ "/" ++ name ++ String.ofList (List.replicate n '/')

/-- An address begins, after what may introduce it, with an owner and a name. -/
def StartsIn (address owner name : String) : Prop :=
  '/' ∉ name.toList ∧ ∃ scheme ∈ ["", "https://", "http://"], ∃ web ∈ ["", "www."],
    ∃ host ∈ ["", "github.com/"], ∃ rest, (rest = "" ∨ Text.begins rest "/" = true) ∧
      Text.strip address = scheme ++ web ++ host ++ owner ++ "/" ++ name ++ rest

/-- The owner and the name of a repository are told of an address. -/
def LocatedAs (address owner name : String) : Prop :=
  (locate address).owner = owner ∧ (locate address).name = name

instance (address owner name : String) : Decidable (LocatedAs address owner name) :=
  inferInstanceAs (Decidable (_ ∧ _))

variable {address scheme owner name : String}

/-! ### The last parts -/

/-- What follows a slash is cut on its own. -/
theorem exists_cut_append {front : List Char} (hfront : front = [] ∨ ['/'] <:+ front)
    (s : List Char) : ∃ parts, Text.cut '/' (front ++ s) = parts ++ Text.cut '/' s := by
  rcases hfront with rfl | ⟨start, rfl⟩
  · exact ⟨[], rfl⟩
  · refine ⟨Text.cut '/' start, ?_⟩
    rw [List.append_assoc, List.singleton_append, Text.cut_append_cons]

/-- An address is located by its last two parts. -/
theorem locatedAs_of_endsIn (howner : '/' ∉ owner.toList) (h : EndsIn address owner name) :
    LocatedAs address owner (Text.replace name ".git" "") := by
  obtain ⟨hname, hpart, front, n, hfront, rfl⟩ := h
  obtain ⟨start, c, hlast⟩ : ∃ start c, name.toList = start ++ [c] :=
    (List.eq_nil_or_concat' name.toList).resolve_left (by simpa using hname)
  have hc : c ≠ '/' := fun heq => hpart (by simp [hlast, heq])
  -- The last character of the name is no slash, so trimming takes just the slashes after it.
  have htrim : Text.trimEnd (· = '/')
      (front ++ owner ++ "/" ++ name ++ String.ofList (List.replicate n '/')).toList =
      front.toList ++ (owner.toList ++ '/' :: name.toList) := by
    have hlist : (front ++ owner ++ "/" ++ name ++ String.ofList (List.replicate n '/')).toList =
        (front.toList ++ (owner.toList ++ '/' :: start)) ++ c :: List.replicate n '/' := by
      simp [hlast]
    rw [hlist, Text.trimEnd_append_cons _ _ (by simpa using hc), Text.trimEnd_replicate (by simp), hlast]
    simp
  have hends : front.toList = [] ∨ ['/'] <:+ front.toList := by
    refine hfront.imp (fun h => ?_) fun h => ?_
    · simp [h]
    · exact List.isSuffixOf_iff_suffix.mp h
  obtain ⟨parts, hparts⟩ := exists_cut_append hends (owner.toList ++ '/' :: name.toList)
  rw [Text.cut_append_cons, Text.cut_of_not_mem howner, Text.cut_of_not_mem hpart] at hparts
  rw [LocatedAs, locate, htrim, Text.split, String.toList_ofList, hparts]
  simp

/-- Before the last part of a text stands nothing, or something that ends in a slash. -/
theorem exists_front_of_cut {s part : List Char} {parts : List (List Char)} (h : Text.cut '/' s = parts ++ [part]) :
    ∃ front, s = front ++ part ∧ (front = [] ∨ ['/'] <:+ front) := by
  by_cases hparts : parts = []
  · subst hparts
    exact ⟨[], Text.eq_of_cut_singleton h, Or.inl rfl⟩
  · obtain ⟨t, u, rfl, -, hu⟩ := Text.exists_of_cut_append h hparts (List.cons_ne_nil part [])
    obtain rfl := Text.eq_of_cut_singleton hu
    exact ⟨t ++ ['/'], by simp, Or.inr (List.suffix_append t ['/'])⟩

/-- An address ends in an owner and a name, or is one part with slashes after it. -/
theorem endsIn_or_single (address : String) :
    (∃ owner name, '/' ∉ owner.toList ∧ EndsIn address owner name) ∨
      (LocatedAs address "unknown" "unknown" ∧
        ∃ part n, '/' ∉ part ∧ address.toList = part ++ List.replicate n '/') := by
  obtain ⟨n, hn⟩ := Text.exists_replicate_of_trimEnd '/' address.toList
  obtain ⟨parts, last, hparts⟩ : ∃ parts last,
      Text.cut '/' (Text.trimEnd (· = '/') address.toList) = parts ++ [last] :=
    (List.eq_nil_or_concat' _).resolve_left (Text.cut_ne_nil '/' _)
  have hlast : '/' ∉ last := Text.not_mem_of_mem_cut (by rw [hparts]; simp)
  rcases List.eq_nil_or_concat' parts with rfl | ⟨more, owner, rfl⟩
  · have hpart := Text.eq_of_cut_singleton hparts
    refine Or.inr ⟨?_, last, n, hlast, hpart ▸ hn⟩
    simp [LocatedAs, locate, Text.split, hparts]
  · obtain ⟨t, u, htrimmed, ht, hu⟩ :=
      Text.exists_of_cut_append hparts (by simp) (List.cons_ne_nil last [])
    obtain rfl := Text.eq_of_cut_singleton hu
    have howner : '/' ∉ owner := Text.not_mem_of_mem_cut (by rw [ht]; simp)
    obtain ⟨front, rfl, hfront⟩ := exists_front_of_cut ht
    have hne : u ≠ [] := by
      rintro rfl
      exact Text.trimEnd_ne_concat (by simp) htrimmed
    refine Or.inl ⟨String.ofList owner, String.ofList u, by simpa using howner, by simpa using hne,
      by simpa using hlast, String.ofList front, n, ?_, ?_⟩
    · refine hfront.imp (fun h => by simp [h]) fun h => ?_
      exact List.isSuffixOf_iff_suffix.mpr (by simpa using h)
    · rw [← String.toList_inj, hn, htrimmed]
      simp

/-! ### The first parts -/

/-- An address without the scheme and the name of the web server. -/
def bare (address : String) : String :=
  let rest := (splitScheme (Text.strip address)).2
  (Text.withoutStart? rest "www.").getD rest

/-- An address without owner and name stays. -/
theorem cloneAddress_of_none (h : ownerAndName? (bare address) = none) : cloneAddress address = address := by
  unfold bare at h
  unfold cloneAddress
  generalize splitScheme (Text.strip address) = parts at h ⊢
  simp only [h]

/-- One with both is written with the host. -/
theorem cloneAddress_of_some (h : ownerAndName? (bare address) = some (owner, name)) :
    cloneAddress address =
      (splitScheme (Text.strip address)).1 ++ "github.com/" ++ owner ++ "/" ++ dropEnd name ".git" := by
  unfold bare at h
  unfold cloneAddress
  generalize splitScheme (Text.strip address) = parts at h ⊢
  simp only [h]

/-- Before the bare address stands nothing but a scheme and the name of the web server. -/
theorem strip_eq_bare (address : String) :
    ∃ scheme ∈ ["", "https://", "http://"], ∃ web ∈ ["", "www."],
      Text.strip address = scheme ++ web ++ bare address := by
  obtain ⟨scheme, hscheme, hrest⟩ : ∃ scheme ∈ ["", "https://", "http://"],
      Text.strip address = scheme ++ (splitScheme (Text.strip address)).2 := by
    rw [splitScheme]
    split
    · rename_i hrest
      exact ⟨"https://", by simp, Text.eq_append_of_withoutStart? hrest⟩
    · rename_i hrest
      exact ⟨"http://", by simp, Text.eq_append_of_withoutStart? hrest⟩
    · exact ⟨"", by simp, by simp⟩
  refine ⟨scheme, hscheme, ?_⟩
  cases hweb : Text.withoutStart? (splitScheme (Text.strip address)).2 "www." with
  | none => exact ⟨"", by simp, by rw [hrest]; simp [bare, hweb]⟩
  | some rest =>
    refine ⟨"www.", by simp, ?_⟩
    rw [hrest, Text.eq_append_of_withoutStart? hweb]
    simp [bare, hweb, String.append_assoc]

/-- A text that is cut into an owner, a name and more begins with the owner and the name. -/
theorem exists_rest_of_cut {s owner name : List Char} {more : List (List Char)}
    (h : Text.cut '/' s = owner :: name :: more) :
    ∃ rest, s = owner ++ '/' :: (name ++ rest) ∧ (rest = [] ∨ ['/'] <+: rest) := by
  obtain ⟨t, u, rfl, ht, hu⟩ := Text.exists_of_cut_append
    (show Text.cut '/' s = [owner] ++ (name :: more) from h) (by simp) (by simp)
  obtain rfl := Text.eq_of_cut_singleton ht
  by_cases hmore : more = []
  · subst hmore
    obtain rfl := Text.eq_of_cut_singleton hu
    exact ⟨[], by simp, Or.inl rfl⟩
  · obtain ⟨v, w, rfl, hv, -⟩ := Text.exists_of_cut_append
      (show Text.cut '/' u = [name] ++ more from hu) (by simp) hmore
    obtain rfl := Text.eq_of_cut_singleton hv
    exact ⟨'/' :: w, rfl, Or.inr (List.prefix_append ['/'] w)⟩

/-- The host is a part of its own. -/
theorem split_host (s : String) :
    Text.split '/' ("github.com/" ++ s) = "github.com" :: Text.split '/' s := by
  have hhost : "github.com/" = "github.com" ++ "/" := rfl
  rw [hhost, Text.split_append_slash, Text.split_of_not_mem (by decide), List.singleton_append]

/-- An address gives its first two parts, after the host if it is there. -/
theorem exists_host_of_ownerAndName? {s : String} (h : ownerAndName? s = some (owner, name)) :
    ∃ host ∈ ["", "github.com/"], ∃ t more, s = host ++ t ∧
      Text.split '/' t = owner :: name :: more := by
  rw [ownerAndName?] at h
  split at h
  · rename_i hbegins
    obtain ⟨t, rfl⟩ := Text.exists_of_begins hbegins
    rw [split_host] at h
    split at h
    · rename_i hparts
      cases h
      exact ⟨"github.com/", by simp, t, _, rfl, (List.cons.inj hparts).2⟩
    · contradiction
  · split at h
    · contradiction
    · split at h
      · rename_i hparts
        cases h
        exact ⟨"", by simp, s, _, by simp, hparts⟩
      · contradiction

/-- Owner and name follow the host, if it is there, and end at a slash. -/
theorem exists_rest_of_ownerAndName? {s : String} (h : ownerAndName? s = some (owner, name)) :
    '/' ∉ owner.toList ∧ '/' ∉ name.toList ∧ ∃ host ∈ ["", "github.com/"], ∃ rest,
      (rest = "" ∨ Text.begins rest "/" = true) ∧ s = host ++ owner ++ "/" ++ name ++ rest := by
  obtain ⟨host, hhost, t, more, rfl, hparts⟩ := exists_host_of_ownerAndName? h
  have howner : '/' ∉ owner.toList := Text.not_mem_of_mem_split (by rw [hparts]; simp)
  have hname : '/' ∉ name.toList := Text.not_mem_of_mem_split (by rw [hparts]; simp)
  have hcut : Text.cut '/' t.toList = owner.toList :: name.toList :: more.map String.toList := by
    simpa [Text.split, Function.comp_def] using congrArg (List.map String.toList) hparts
  obtain ⟨rest, ht, hrest⟩ := exists_rest_of_cut hcut
  refine ⟨howner, hname, host, hhost, String.ofList rest, ?_, ?_⟩
  · exact hrest.imp (fun h => by simp [h]) fun h =>
      List.isPrefixOf_iff_prefix.mpr (by simpa using h)
  · rw [← String.toList_inj]
    simp [ht]

/-- A scheme is split off. -/
theorem splitScheme_append (hscheme : scheme = "https://" ∨ scheme = "http://") (s : String) :
    splitScheme (scheme ++ s) = (scheme, s) := by
  rcases hscheme with rfl | rfl
  · rw [splitScheme, Text.withoutStart?_append]
  · have hsecure : Text.withoutStart? ("http://" ++ s) "https://" = none := by
      simp [Text.withoutStart?, Text.begins]
    rw [splitScheme, Text.withoutStart?_append, hsecure]

/-- A stripped clone address ends in its name without blanks. -/
theorem strip_of_isCloneAddress (h : IsCloneAddress address scheme owner name) :
    Text.strip address = scheme ++ ("github.com/" ++ (owner ++ "/" ++
        String.ofList (Text.trimEnd Text.isBlank name.toList))) := by
  obtain ⟨hscheme, -, -, rfl⟩ := h
  obtain ⟨rest, hrest⟩ : ∃ rest, scheme.toList = 'h' :: rest := by
    rcases hscheme with rfl | rfl
    · exact ⟨_, rfl⟩
    · exact ⟨_, rfl⟩
  have hlist : (scheme ++ "github.com/" ++ owner ++ "/" ++ name).toList =
      'h' :: (rest ++ "github.com/".toList ++ owner.toList) ++ '/' :: name.toList := by
    simp [hrest]
  rw [Text.strip, Text.trim, hlist, List.cons_append, List.dropWhile_cons_of_neg (by decide),
    ← List.cons_append, Text.trimEnd_append_cons _ _ (by decide), ← String.toList_inj]
  simp [hrest]

/-- So does one without its scheme. -/
theorem bare_of_isCloneAddress (h : IsCloneAddress address scheme owner name) :
    bare address = "github.com/" ++ (owner ++ "/" ++
        String.ofList (Text.trimEnd Text.isBlank name.toList)) := by
  have hweb : ∀ s, Text.withoutStart? ("github.com/" ++ s) "www." = none := fun s => by
    simp [Text.withoutStart?, Text.begins]
  rw [bare, strip_of_isCloneAddress h, splitScheme_append h.scheme_eq, hweb, Option.getD_none]

/-- A clone address has its owner. -/
theorem ownerAndName?_of_isCloneAddress (h : IsCloneAddress address scheme owner name) :
    ∃ part, ownerAndName? (bare address) = some (owner, part) := by
  have hpart : '/' ∉ (String.ofList (Text.trimEnd Text.isBlank name.toList)).toList := by
    rw [String.toList_ofList]
    exact fun hmem => h.name_part ((List.rdropWhile_prefix Text.isBlank name.toList).subset hmem)
  refine ⟨String.ofList (Text.trimEnd Text.isBlank name.toList), ?_⟩
  rw [bare_of_isCloneAddress h, ownerAndName?, if_pos (by simp [Text.begins]), split_host,
    Text.split_append_slash, Text.split_of_not_mem h.owner_part, Text.split_of_not_mem hpart]
  rfl

/-- Its last parts are owner and name. -/
theorem IsCloneAddress.split_eq (h : IsCloneAddress address scheme owner name) :
    Text.split '/' address = Text.split '/' (scheme ++ "github.com") ++ [owner, name] := by
  have hhost : "github.com/" = "github.com" ++ "/" := rfl
  rw [h.address_eq, Text.split_append_slash, Text.split_of_not_mem h.name_part, hhost,
    ← String.append_assoc, Text.split_append_slash, Text.split_of_not_mem h.owner_part]
  simp

/-- An address to clone from has one owner and one name. -/
theorem IsCloneAddress.unique {scheme' owner' name' : String} (h : IsCloneAddress address scheme owner name)
    (h' : IsCloneAddress address scheme' owner' name') : owner = owner' ∧ name = name' := by
  have hlast := (List.append_inj' (h.split_eq.symm.trans h'.split_eq) rfl).2
  simpa using hlast

/-- A scheme is one of two. -/
theorem splitScheme_scheme (s : String) :
    (splitScheme s).1 = "https://" ∨ (splitScheme s).1 = "http://" := by
  rw [splitScheme]
  split
  · exact Or.inl rfl
  · exact Or.inr rfl
  · exact Or.inl rfl

/-- Dropping an end adds no character. -/
theorem not_mem_dropEnd {c : Char} {tail : String} (h : c ∉ name.toList) : c ∉ (dropEnd name tail).toList := by
  rw [dropEnd, Text.withoutEnd?]
  split
  · rw [Option.getD_some, String.toList_ofList]
    exact fun hmem => h (List.mem_of_mem_take hmem)
  · exact h

/-- What is cloned is what the address begins with, without a `.git` behind the name. -/
theorem exists_startsIn {repo : String} (h : IsCloneAddress (cloneAddress address) scheme owner repo) :
    ∃ name, StartsIn address owner name ∧ dropEnd name ".git" = repo := by
  cases hfound : ownerAndName? (bare address) with
  | none =>
    -- Then the address itself has the form, and such an address gives an owner and a name.
    rw [cloneAddress_of_none hfound] at h
    obtain ⟨part, hpart⟩ := ownerAndName?_of_isCloneAddress h
    exact absurd (hfound.symm.trans hpart) (by simp)
  | some found =>
    obtain ⟨owner', name⟩ := found
    obtain ⟨howner, hname, host, hhost, rest, hrest, hbare⟩ := exists_rest_of_ownerAndName? hfound
    have hcloned : IsCloneAddress (cloneAddress address) (splitScheme (Text.strip address)).1 owner'
        (dropEnd name ".git") :=
      ⟨splitScheme_scheme _, howner, not_mem_dropEnd hname, cloneAddress_of_some hfound⟩
    obtain ⟨rfl, rfl⟩ := hcloned.unique h
    obtain ⟨scheme', hscheme, web, hweb, hstrip⟩ := strip_eq_bare address
    refine ⟨name, ⟨hname, scheme', hscheme, web, hweb, host, hhost, rest, hrest, ?_⟩, rfl⟩
    rw [hstrip, hbare]
    simp only [String.append_assoc]

/-! ### Both together -/

/-- After one part there are only slashes. -/
theorem eq_slash_of_append {part front rest : List Char} {n : Nat} (hpart : '/' ∉ part)
    (h : part ++ List.replicate n '/' = front ++ '/' :: rest) : ∀ c ∈ rest, c = '/' := by
  intro c hc
  rcases List.append_eq_append_iff.mp h with ⟨more, -, hmore⟩ | ⟨more, rfl, hmore⟩
  · exact List.eq_of_mem_replicate (by rw [hmore]; simp [hc])
  · cases more with
    | nil =>
      rw [List.nil_append] at hmore
      exact List.eq_of_mem_replicate (by rw [← hmore]; simp [hc])
    | cons first more =>
      obtain rfl : '/' = first := (List.cons.inj hmore).1
      exact absurd (List.mem_append_right front List.mem_cons_self) hpart

/-- What is stripped stood there. -/
theorem strip_infix (s : String) : (Text.strip s).toList <:+: s.toList := by
  rw [Text.strip, String.toList_ofList, Text.trim]
  exact (List.rdropWhile_prefix _ _).isInfix.trans (List.dropWhile_suffix _).isInfix

/-- An address that starts in owner and name is more than one part. -/
theorem StartsIn.ne_single (h : StartsIn address owner name) (hname : name ≠ "") {part : List Char}
    (hpart : '/' ∉ part) (n : Nat) : address.toList ≠ part ++ List.replicate n '/' := by
  intro haddress
  obtain ⟨hslash, scheme, -, web, -, host, -, rest, -, hstrip⟩ := h
  obtain ⟨before, after, hinfix⟩ := strip_infix address
  have hcut : part ++ List.replicate n '/' =
      (before ++ (scheme ++ web ++ host ++ owner).toList) ++
        '/' :: (name.toList ++ rest.toList ++ after) := by
    rw [← haddress, ← hinfix, hstrip]
    simp
  obtain ⟨c, hc⟩ := List.exists_mem_of_ne_nil name.toList (by simpa using hname)
  obtain rfl := eq_slash_of_append hpart hcut c (by simp [hc])
  exact hslash hc

/-- Both ways to drop `.git` agree unless it occurs before. -/
theorem replace_eq_dropEnd_iff (name : String) :
    Text.replace name ".git" "" = dropEnd name ".git" ↔
      Text.has (dropEnd name ".git") ".git" = false := by
  have hgit : ".git".toList = ['.', 'g', 'i', 't'] := rfl
  have hnothing : "".toList = [] := rfl
  have hsame := Text.exchange_eq_self_iff (show [].length < ['.', 'g', 'i', 't'].length by decide)
  by_cases hends : Text.ends name ".git" = true
  · obtain ⟨start, hstart⟩ := List.isSuffixOf_iff_suffix.mp hends
    have hdrop : dropEnd name ".git" = String.ofList start := by
      simp [dropEnd, Text.withoutEnd?, hends, ← String.length_toList, ← hstart]
    rw [hdrop, Text.replace, Text.has, ← hstart, hgit, hnothing,
      Text.exchange_append_self (by decide), List.append_nil, String.toList_ofList, String.ofList_inj]
    exact hsame start
  · have hdrop : dropEnd name ".git" = name := by simp [dropEnd, Text.withoutEnd?, hends]
    rw [hdrop, Text.replace, Text.has, hgit, hnothing, ← String.toList_inj, String.toList_ofList]
    exact hsame name.toList

/-- The owner and name that are told are the cloned ones exactly if the address ends in the owner and a name
that is the cloned one when every `.git` is removed. -/
theorem location_agrees_iff {repo : String}
    (hform : IsCloneAddress (cloneAddress address) scheme owner repo) :
    (∃ name, StartsIn address owner name ∧ dropEnd name ".git" = repo) ∧
    (LocatedAs address owner repo ↔
      ∃ name, EndsIn address owner name ∧ Text.replace name ".git" "" = repo) ∧
    ∀ name, EndsIn address owner name → dropEnd name ".git" = repo →
      (LocatedAs address owner repo ↔ Text.has repo ".git" = false) := by
  have hstarts := exists_startsIn hform
  have hends : ∀ name, EndsIn address owner name →
      (LocatedAs address owner repo ↔ Text.replace name ".git" "" = repo) := by
    intro name hname
    obtain ⟨howner, htold⟩ := locatedAs_of_endsIn hform.owner_part hname
    simp [LocatedAs, howner, htold]
  refine ⟨hstarts, ⟨fun htold => ?_, fun ⟨name, hname, hrepo⟩ => (hends name hname).mpr hrepo⟩, ?_⟩
  · rcases endsIn_or_single address with
      ⟨owner', name, howner, hname⟩ | ⟨hunknown, part, n, hpart, hsingle⟩
    · obtain rfl : owner' = owner :=
        (locatedAs_of_endsIn howner hname).1.symm.trans htold.1
      exact ⟨name, hname, (hends name hname).mp htold⟩
    · -- An address of one part gives no name, so what is cloned is not named `unknown` either.
      obtain ⟨name, hname, hrepo⟩ := hstarts
      have hunnamed : repo = "unknown" := htold.2.symm.trans hunknown.2
      have hne : name ≠ "" := by
        rintro rfl
        exact absurd (hrepo.trans hunnamed) (by decide)
      exact absurd hsingle (hname.ne_single hne hpart n)
  · rintro name hname rfl
    rw [hends name hname]
    exact replace_eq_dropEnd_iff name

/-- A page inside a repository is told as a repository of its own, and a name loses the `.git` inside it. -/
theorem inner_page_told_wrongly :
    (IsCloneAddress (cloneAddress "https://github.com/o/r/tree/main") "https://" "o" "r" ∧
      ¬ LocatedAs "https://github.com/o/r/tree/main" "o" "r") ∧
    (IsCloneAddress (cloneAddress "https://github.com/o/o.github.io") "https://" "o" "o.github.io" ∧
      ¬ LocatedAs "https://github.com/o/o.github.io" "o" "o.github.io") :=
  ⟨⟨⟨Or.inl rfl, by decide, by decide, by decide +kernel⟩, by decide +kernel⟩,
    ⟨Or.inl rfl, by decide, by decide, by decide +kernel⟩, by decide +kernel⟩

/-- A clone address with `.git` is told by owner and name. -/
theorem git_address_told :
    IsCloneAddress (cloneAddress "http://www.github.com/o/r.git//") "http://" "o" "r" ∧
      EndsIn "http://www.github.com/o/r.git//" "o" "r.git" ∧
      LocatedAs "http://www.github.com/o/r.git//" "o" "r" := by
  have hform : IsCloneAddress (cloneAddress "http://www.github.com/o/r.git//") "http://" "o" "r" :=
    ⟨Or.inr rfl, by decide, by decide, by decide +kernel⟩
  have hends : EndsIn "http://www.github.com/o/r.git//" "o" "r.git" :=
    ⟨by decide, by decide, "http://www.github.com/", 2, Or.inr (by decide +kernel), by decide +kernel⟩
  have htold := (location_agrees_iff hform).2.2 "r.git" hends (by decide +kernel)
  exact ⟨hform, hends, htold.mpr (by decide +kernel)⟩

end RepoAtlas.Repository
