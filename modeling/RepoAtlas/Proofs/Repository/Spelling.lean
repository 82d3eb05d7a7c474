import RepoAtlas.Proofs.Repository.Location
import RepoAtlas.Proofs.Text.Tidy

/-!
# Spellings of an address

A repository can be given with or without the scheme, the name of the web server and the host, with `.git`
behind its name, with a further path, and with blanks around all of it. Every spelling is cloned from one
address, and that address is cloned from itself.
-/

namespace RepoAtlas.Repository

/-- The name of an owner or of a repository. -/
structure IsPlainName (s : String) : Prop where
  ne_empty : s ≠ ""
  slash : '/' ∉ s.toList
  colon : ':' ∉ s.toList
  blank : s.toList.any Text.isBlank = false

/-- An owner and a name that cannot be taken for other parts of a spelling. -/
structure AreDistinct (owner name : String) : Prop where
  owner_plain : IsPlainName owner
  name_plain : IsPlainName name
  owner_not_host : Text.begins owner "github.com" = false
  owner_not_web : Text.begins owner "www." = false
  name_not_git : Text.ends name ".git" = false

/-- What a spelling has besides the owner and the name. -/
structure Spelling where
  before : String := ""
  scheme : String := ""
  web : String := ""
  host : String := ""
  git : String := ""
  path : String := ""
  after : String := ""
  before_blank : ∀ c ∈ before.toList, Text.isBlank c = true
  scheme_eq : scheme = "" ∨ scheme = "https://"
  web_eq : web = "" ∨ web = "www."
  host_eq : host = "" ∨ host = "github.com/"
  git_eq : git = "" ∨ git = ".git"
  path_eq : path = "" ∨ Text.begins path "/" = true
  after_blank : ∀ c ∈ after.toList, Text.isBlank c = true

/-- The address in a spelling. -/
def Spelling.address (p : Spelling) (owner name : String) : String :=
  p.before ++ p.scheme ++ p.web ++ p.host ++ owner ++ "/" ++ name ++ p.git ++ p.path ++ p.after

/-- The address that a repository is cloned from. -/
def canonicalAddress (owner name : String) : String :=
  "https://github.com/" ++ owner ++ "/" ++ name

variable {owner name : String}

/-! ### The parts -/

/-- The first part of an address decides how it begins. -/
theorem begins_append_slash {head : String} (hhead : '/' ∉ head.toList) (s t : String) :
    Text.begins (s ++ "/" ++ t) head = Text.begins s head := by
  have hlist : (s ++ "/" ++ t).toList = s.toList ++ '/' :: t.toList := by simp
  rw [Text.begins, Text.begins, Bool.eq_iff_iff, List.isPrefixOf_iff_prefix, List.isPrefixOf_iff_prefix,
    hlist, Text.prefix_append_cons_iff]
  refine or_iff_left ?_
  rintro ⟨more, heq, -⟩
  exact hhead (by simp [heq])

/-- An address whose first part holds no colon has no scheme. -/
theorem splitScheme_append_slash {front : String} (hslash : '/' ∉ front.toList)
    (hcolon : ':' ∉ front.toList) (t : String) :
    splitScheme (front ++ "/" ++ t) = ("https://", front ++ "/" ++ t) := by
  have hnone : ∀ scheme : String, ':' ∈ scheme.toList → '/' ∉ scheme.toList →
      Text.withoutStart? (front ++ "/" ++ t) (scheme ++ "/" ++ "/") = none := by
    intro scheme hmem hpart
    refine Option.eq_none_iff_forall_ne_some.mpr fun rest hrest => ?_
    have hsame := (Text.eq_append_of_withoutStart? hrest).trans String.append_assoc
    have hparts := congrArg (Text.split '/') hsame
    rw [Text.split_append_slash, Text.split_append_slash, Text.split_of_not_mem hslash,
      Text.split_of_not_mem hpart] at hparts
    obtain rfl : front = scheme := (List.cons.inj hparts).1
    exact hcolon hmem
  have hsecure := hnone "https:" (by decide) (by decide)
  have hopen := hnone "http:" (by decide) (by decide)
  rw [splitScheme]
  simp only [show "https://" = "https:" ++ "/" ++ "/" from rfl, show "http://" = "http:" ++ "/" ++ "/" from rfl,
    hsecure, hopen]

/-- The first two parts of an address, after the host if it is there, are the owner and the name. -/
theorem ownerAndName?_append {host t : String} {more : List String} (hhost : host = "" ∨ host = "github.com/")
    (howner : Text.begins owner "github.com" = false)
    (hparts : Text.split '/' (owner ++ "/" ++ t) = owner :: name :: more) :
    ownerAndName? (host ++ (owner ++ "/" ++ t)) = some (owner, name) := by
  rcases hhost with rfl | rfl
  · have hbegins : Text.begins (owner ++ "/" ++ t) "github.com" = false := by
      rw [begins_append_slash (by decide), howner]
    have hslash : Text.begins (owner ++ "/" ++ t) "github.com/" = false := by
      refine Bool.eq_false_iff.mpr fun h => Bool.eq_false_iff.mp hbegins ?_
      rw [Text.begins, List.isPrefixOf_iff_prefix] at h ⊢
      exact (List.prefix_append "github.com".toList ['/']).trans h
    rw [String.empty_append, ownerAndName?, hparts, hslash, hbegins]
    rfl
  · rw [ownerAndName?, split_host, hparts, if_pos (by simp [Text.begins])]

/-- An end `.git` is dropped once. -/
theorem dropEnd_append_git {git : String} (hgit : git = "" ∨ git = ".git")
    (hname : Text.ends name ".git" = false) : dropEnd (name ++ git) ".git" = name := by
  rcases hgit with rfl | rfl
  · simp [dropEnd, Text.withoutEnd?, hname]
  · have hends : Text.ends (name ++ ".git") ".git" = true := by
      rw [Text.ends, List.isSuffixOf_iff_suffix, String.toList_append]
      exact List.suffix_append name.toList ".git".toList
    simp [dropEnd, Text.withoutEnd?, hends, ← String.length_toList]

namespace Spelling

variable (p : Spelling)

/-- The further path without the blanks at its end. -/
def trimmedPath : String :=
  String.ofList (Text.trimEnd Text.isBlank p.path.toList)

/-- A path that follows begins with a slash. -/
theorem trimmedPath_eq : p.trimmedPath = "" ∨ ∃ rest, p.trimmedPath = "/" ++ rest := by
  refine p.path_eq.imp (fun h => ?_) fun h => ?_
  · rw [trimmedPath, h]
    rfl
  · obtain ⟨rest, hrest⟩ := Text.exists_of_begins h
    refine ⟨String.ofList (Text.trimEnd Text.isBlank rest.toList), ?_⟩
    have hslash := Text.trimEnd_append_cons (p := Text.isBlank) (c := '/') [] rest.toList (by decide)
    rw [trimmedPath, hrest, ← String.toList_inj]
    simpa using hslash

/-- A stripped address has its parts in order. -/
theorem strip_address (hplain : AreDistinct owner name) :
    Text.strip (p.address owner name) =
      p.scheme ++ (p.web ++ (p.host ++ (owner ++ "/" ++ (name ++ p.git ++ p.trimmedPath)))) := by
  have hshape : p.address owner name = p.before ++
      (p.scheme ++ p.web ++ p.host ++ owner ++ "/" ++ name ++ p.git ++ (p.path ++ p.after)) := by
    simp only [address, String.append_assoc]
  have hsolid : (p.scheme ++ p.web ++ p.host ++ owner ++ "/" ++ name ++ p.git).toList.any Text.isBlank =
      false := by
    have hliteral : ∀ {s part : String}, s = "" ∨ s = part → part.toList.any Text.isBlank = false →
        s.toList.any Text.isBlank = false := by
      rintro s part (rfl | rfl) h
      · rfl
      · exact h
    simp only [String.toList_append, List.any_append, Bool.or_eq_false_iff]
    exact ⟨⟨⟨⟨⟨⟨hliteral p.scheme_eq (by decide), hliteral p.web_eq (by decide)⟩,
      hliteral p.host_eq (by decide)⟩, hplain.owner_plain.blank⟩, by decide⟩, hplain.name_plain.blank⟩,
      hliteral p.git_eq (by decide)⟩
  have hne : p.scheme ++ p.web ++ p.host ++ owner ++ "/" ++ name ++ p.git ≠ "" := fun heq => by
    simpa using congrArg String.toList heq
  rw [hshape, Text.strip_append_of_forall p.before_blank, Text.strip_append hsolid hne, String.toList_append,
    Text.trimEnd_append_of_forall _ p.after_blank]
  simp only [trimmedPath, String.append_assoc]

/-- The scheme is always the secure one, and behind the web server stands the host, if it is there, and the
owner. -/
theorem split_address (hplain : AreDistinct owner name) :
    (splitScheme (Text.strip (p.address owner name))).1 = "https://" ∧
      bare (p.address owner name) = p.host ++ (owner ++ "/" ++ (name ++ p.git ++ p.trimmedPath)) := by
  -- In front of the first slash stands the host or the owner.
  obtain ⟨front, t, hfront, hshape⟩ : ∃ front t, (front = "github.com" ∨ front = owner) ∧
      p.host ++ (owner ++ "/" ++ (name ++ p.git ++ p.trimmedPath)) = front ++ "/" ++ t := by
    rcases p.host_eq with h | h
    · exact ⟨owner, _, Or.inr rfl, by rw [h, String.empty_append]⟩
    · exact ⟨"github.com", _, Or.inl rfl, by rw [h]; rfl⟩
  obtain ⟨hslash, hcolon, hbegins⟩ :
      '/' ∉ front.toList ∧ ':' ∉ front.toList ∧ Text.begins front "www." = false := by
    rcases hfront with rfl | rfl
    · decide +kernel
    · exact ⟨hplain.owner_plain.slash, hplain.owner_plain.colon, hplain.owner_not_web⟩
  have hsplit : splitScheme (Text.strip (p.address owner name)) = ("https://", p.web ++ (front ++ "/" ++ t)) := by
    rw [p.strip_address hplain, hshape]
    rcases p.scheme_eq with h | h
    · have hpart : '/' ∉ (p.web ++ front).toList ∧ ':' ∉ (p.web ++ front).toList := by
        rcases p.web_eq with h | h <;> simpa [h] using ⟨hslash, hcolon⟩
      simpa [h, String.append_assoc] using splitScheme_append_slash hpart.1 hpart.2 t
    · rw [h, splitScheme_append (Or.inl rfl)]
  refine ⟨congrArg Prod.fst hsplit, ?_⟩
  rw [hshape, bare, hsplit]
  rcases p.web_eq with h | h
  · have hnone : Text.withoutStart? (front ++ "/" ++ t) "www." = none := by
      rw [Text.withoutStart?, begins_append_slash (by decide), hbegins]
      rfl
    rw [h, String.empty_append, hnone]
    rfl
  · rw [h, Text.withoutStart?_append]
    rfl

/-- Every spelling has the canonical clone address. -/
theorem cloneAddress_eq (hplain : AreDistinct owner name) :
    cloneAddress (p.address owner name) = canonicalAddress owner name := by
  obtain ⟨hscheme, hbare⟩ := p.split_address hplain
  have hname : '/' ∉ (name ++ p.git).toList := by
    rcases p.git_eq with h | h <;> simpa [h] using hplain.name_plain.slash
  obtain ⟨more, hmore⟩ : ∃ more, Text.split '/' (name ++ p.git ++ p.trimmedPath) = (name ++ p.git) :: more := by
    rcases p.trimmedPath_eq with h | ⟨rest, h⟩
    · exact ⟨[], by rw [h, String.append_empty, Text.split_of_not_mem hname]⟩
    · refine ⟨Text.split '/' rest, ?_⟩
      rw [h, ← String.append_assoc, Text.split_append_slash, Text.split_of_not_mem hname, List.singleton_append]
  have hfound := ownerAndName?_append (t := name ++ p.git ++ p.trimmedPath) p.host_eq hplain.owner_not_host
    (by rw [Text.split_append_slash, Text.split_of_not_mem hplain.owner_plain.slash, hmore, List.singleton_append])
  rw [← hbare] at hfound
  rw [cloneAddress_of_some hfound, hscheme, dropEnd_append_git p.git_eq hplain.name_not_git]
  rfl

/-- The spelling that an address to clone from has. -/
def canonical : Spelling where
  scheme := "https://"
  host := "github.com/"
  before_blank := by simp
  scheme_eq := Or.inr rfl
  web_eq := Or.inl rfl
  host_eq := Or.inr rfl
  git_eq := Or.inl rfl
  path_eq := Or.inl rfl
  after_blank := by simp

/-- The canonical spelling is the canonical address. -/
theorem address_canonical (owner name : String) : canonical.address owner name = canonicalAddress owner name := by
  simp only [address, canonical, String.empty_append, String.append_empty]
  rfl

end Spelling

/-- Every spelling of a repository is cloned from one address, and that address from itself. -/
theorem spellings_cloned_alike (p : Spelling) (hplain : AreDistinct owner name) :
    cloneAddress (p.address owner name) = canonicalAddress owner name ∧
      cloneAddress (canonicalAddress owner name) = canonicalAddress owner name :=
  ⟨p.cloneAddress_eq hplain, Spelling.address_canonical owner name ▸ Spelling.canonical.cloneAddress_eq hplain⟩

/-- The owner and the name may look like a scheme and a web server themselves. -/
theorem web_spelling_cloned :
    cloneAddress "\t www.https/www.github.com.git/tree/x " = "https://github.com/https/www.github.com" := by
  have hplain : AreDistinct "https" "www.github.com" :=
    ⟨⟨by decide, by decide, by decide, by decide⟩, ⟨by decide, by decide, by decide, by decide⟩,
      by decide +kernel, by decide +kernel, by decide +kernel⟩
  exact (spellings_cloned_alike ⟨"\t ", "", "www.", "", ".git", "/tree/x", " ", by simp; decide, Or.inl rfl,
    Or.inr rfl, Or.inl rfl, Or.inr rfl, Or.inr (by decide +kernel), by simp; decide⟩ hplain).1

end RepoAtlas.Repository
