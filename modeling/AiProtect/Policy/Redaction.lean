import AiProtect.Lib.Search
import Mathlib.Data.List.TakeWhile
import Mathlib.Data.String.Basic

/-! # What the log shows of a store's URL

The URL of a store that cannot be opened is logged without its credentials. They are taken
to end at the last `@` before the first `/`, so credentials with a `/` in them are cut in
two, and the log shows what follows. The theorem of this module says which credentials are
told apart by the log.
-/

namespace AiProtect

open Search

def redactValkeyUrl (url : String) : String :=
  match find "://".toList url.toList with
  | none => "<redacted: unparseable state_db url>"
  | some schemeEnd =>
      let scheme := url.toList.take (schemeEnd + "://".toList.length)
      let rest := url.toList.drop (schemeEnd + "://".toList.length)
      let authorityEnd := (rest.findIdx? (· = '/')).getD rest.length
      let authority := rest.take authorityEnd
      let remainder := rest.drop authorityEnd
      match rfind '@' authority with
      | some position =>
          String.ofList (scheme ++ "<redacted>@".toList ++ authority.drop (position + 1) ++ remainder)
      | none => url

/-- The URL with this userinfo. -/
def urlWith (scheme userinfo host : String) : String := scheme ++ "://" ++ userinfo ++ "@" ++ host

/-- An `@` stands before the first `/`, and `tail` follows the last such `@`. -/
def EndsIn (userinfo tail : List Char) : Prop :=
  ∃ front back rest, userinfo = front ++ '@' :: tail ∧ tail = back ++ '/' :: rest ∧
    '/' ∉ front ∧ '/' ∉ back ∧ '@' ∉ back

/-- Two userinfos that the log does not tell apart: neither has a `/`, or they are the same,
    or both have an `@` before the first `/` and the same text after the last such `@`. -/
def ShownAlike (userinfo other : List Char) : Prop :=
  ('/' ∉ userinfo ∧ '/' ∉ other) ∨ userinfo = other ∨ ∃ tail, EndsIn userinfo tail ∧ EndsIn other tail

/-- What stands for the userinfo and its `@` in the log. -/
inductive Shows : List Char → List Char → Prop where
  | hidden {userinfo : List Char} (whole : '/' ∉ userinfo) : Shows userinfo "<redacted>@".toList
  | cut {front back rest : List Char} (noSlash : '/' ∉ front) (first : '/' ∉ back) (last : '@' ∉ back) :
      Shows (front ++ '@' :: (back ++ '/' :: rest)) ("<redacted>@".toList ++ (back ++ '/' :: rest) ++ ['@'])
  | plain {front rest : List Char} (first : '/' ∉ front) (noAt : '@' ∉ front) :
      Shows (front ++ '/' :: rest) (front ++ '/' :: rest ++ ['@'])

section Redact

variable {scheme host : List Char}

theorem findIdx?_slash {authority remainder : List Char} (inside : '/' ∉ authority)
    (ends : remainder = [] ∨ ∃ more, remainder = '/' :: more) :
    ((authority ++ remainder).findIdx? (· = '/')).getD (authority ++ remainder).length = authority.length := by
  have none : authority.findIdx? (· = '/') = none := by
    rw [List.findIdx?_eq_none_iff]
    intro char member
    exact decide_eq_false fun same => inside (same ▸ member)
  rw [List.findIdx?_append, none]
  rcases ends with rfl | ⟨more, rfl⟩
  · rw [List.append_nil]
    rfl
  · rw [List.findIdx?_cons, if_pos (by decide)]
    exact Nat.zero_add _

/-- The scheme ends where it should, and the authority at the first `/`. -/
theorem split_url (absent : ¬ "://".toList <:+: scheme) {authority remainder : List Char}
    (inside : '/' ∉ authority) (ends : remainder = [] ∨ ∃ more, remainder = '/' :: more) {url : String}
    (split : url.toList = scheme ++ ("://".toList ++ (authority ++ remainder))) :
    find "://".toList url.toList = some scheme.length ∧
      url.toList.take (scheme.length + "://".toList.length) = scheme ++ "://".toList ∧
      url.toList.drop (scheme.length + "://".toList.length) = authority ++ remainder ∧
      ((authority ++ remainder).findIdx? (· = '/')).getD (authority ++ remainder).length = authority.length := by
  have cut : url.toList = (scheme ++ "://".toList) ++ (authority ++ remainder) := by
    rw [split, List.append_assoc]
  have length : scheme.length + "://".toList.length = (scheme ++ "://".toList).length := List.length_append.symm
  refine ⟨?_, ?_, ?_, findIdx?_slash inside ends⟩
  · rw [split]
    exact find_append (by decide) absent
  · rw [cut, length, List.take_left]
  · rw [cut, length, List.drop_left]

theorem redact_of_at (absent : ¬ "://".toList <:+: scheme) {front back remainder : List Char}
    (inside : '/' ∉ front) (insideBack : '/' ∉ back) (last : '@' ∉ back)
    (ends : remainder = [] ∨ ∃ more, remainder = '/' :: more) {url : String}
    (split : url.toList = scheme ++ ("://".toList ++ (front ++ '@' :: back ++ remainder))) :
    (redactValkeyUrl url).toList = scheme ++ "://".toList ++ "<redacted>@".toList ++ back ++ remainder := by
  have authority : '/' ∉ front ++ '@' :: back := by
    intro member
    rcases List.mem_append.mp member with before | after
    · exact inside before
    · exact (List.mem_cons.mp after).elim (by decide) insideBack
  obtain ⟨found, taken, dropped, first⟩ := split_url absent authority ends split
  have tail : (front ++ '@' :: back).drop (front.length + 1) = back := by
    rw [← List.drop_drop, List.drop_left, List.drop_one, List.tail_cons]
  simp only [redactValkeyUrl, found, taken, dropped, first, List.take_left, List.drop_left, rfind_append last, tail,
    String.toList_ofList]

theorem redact_of_plain (absent : ¬ "://".toList <:+: scheme) {authority remainder : List Char}
    (inside : '/' ∉ authority) (noAt : '@' ∉ authority)
    (ends : remainder = [] ∨ ∃ more, remainder = '/' :: more) {url : String}
    (split : url.toList = scheme ++ ("://".toList ++ (authority ++ remainder))) : redactValkeyUrl url = url := by
  obtain ⟨found, -, dropped, first⟩ := split_url absent inside ends split
  simp only [redactValkeyUrl, found, dropped, first, List.take_left, rfind_eq_none noAt]

/-- The host ends the authority, or goes on with a `/`. -/
theorem exists_split_slash (text : List Char) :
    ∃ before after, text = before ++ after ∧ '/' ∉ before ∧ (after = [] ∨ ∃ more, after = '/' :: more) := by
  by_cases slash : '/' ∈ text
  · obtain ⟨before, more, split, absent⟩ := List.eq_append_cons_of_mem slash
    exact ⟨before, '/' :: more, split, absent, .inr ⟨more, rfl⟩⟩
  · exact ⟨text, [], (List.append_nil text).symm, slash, .inl rfl⟩

/-- The log shows the URL with what stands for the userinfo. -/
theorem redact_shows (absent : ¬ "://".toList <:+: scheme) (plain : '@' ∉ host) {userinfo shown : List Char}
    (shows : Shows userinfo shown) {url : String}
    (split : url.toList = scheme ++ ("://".toList ++ (userinfo ++ '@' :: host))) :
    (redactValkeyUrl url).toList = scheme ++ "://".toList ++ shown ++ host := by
  cases shows with
  | hidden whole =>
      obtain ⟨before, after, rfl, inside, ends⟩ := exists_split_slash host
      have noAt : '@' ∉ before := fun member => plain (List.mem_append_left _ member)
      rw [redact_of_at absent whole inside noAt ends (by simpa using split)]
      simp
  | @cut front back rest noSlash first last =>
      rw [redact_of_at absent noSlash first last (.inr ⟨rest ++ '@' :: host, rfl⟩) (by simpa using split)]
      simp
  | @plain front rest first noAt =>
      rw [redact_of_plain absent first noAt (.inr ⟨rest ++ '@' :: host, rfl⟩) (by simpa using split), split]
      simp

/-- Every userinfo is shown in one of the three ways. -/
theorem exists_shows (userinfo : List Char) : ∃ shown, Shows userinfo shown := by
  obtain ⟨before, after, rfl, inside, ends⟩ := exists_split_slash userinfo
  rcases ends with rfl | ⟨rest, rfl⟩
  · rw [List.append_nil]
    exact ⟨_, .hidden inside⟩
  · by_cases credentials : '@' ∈ before
    · obtain ⟨front, back, rfl, last⟩ := exists_last credentials
      have noSlash : '/' ∉ front := fun member => inside (List.mem_append_left _ member)
      have first : '/' ∉ back := fun member => inside (List.mem_append_right _ (List.mem_cons_of_mem _ member))
      rw [List.append_assoc, List.cons_append]
      exact ⟨_, .cut noSlash first last⟩
    · exact ⟨_, .plain inside credentials⟩

end Redact

namespace Shows

variable {userinfo other shown otherShown : List Char}

/-- What the log shows is determined by the userinfo. -/
theorem functional (shows : Shows userinfo shown) (again : Shows userinfo otherShown) : shown = otherShown := by
  have absent : ¬ "://".toList <:+: [] := by decide
  have split : (String.ofList ([] ++ ("://".toList ++ (userinfo ++ '@' :: [])))).toList =
      [] ++ ("://".toList ++ (userinfo ++ '@' :: [])) := String.toList_ofList
  have first := redact_shows absent List.not_mem_nil shows split
  have second := redact_shows absent List.not_mem_nil again split
  exact List.append_cancel_left (List.append_cancel_right (first.symm.trans second))

/-- The first `/` stands in one place. -/
theorem front_eq {front rest otherFront otherRest : List Char} (inside : '/' ∉ front) (otherInside : '/' ∉ otherFront)
    (same : front ++ '/' :: rest = otherFront ++ '/' :: otherRest) : front = otherFront := by
  have before : ∀ front rest : List Char, '/' ∉ front → (front ++ '/' :: rest).takeWhile (· ≠ '/') = front := by
    intro front rest inside
    have pass : ∀ char ∈ front, decide (char ≠ '/') = true := by
      intro char member
      exact decide_eq_true fun same => inside (same ▸ member)
    rw [List.takeWhile_append_of_pos pass, List.takeWhile_cons_of_neg (by decide), List.append_nil]
  rw [← before front rest inside, same, before otherFront otherRest otherInside]

/-- A URL that is shown as it is has no `@` where the others have theirs. -/
theorem plain_ne_cut {front rest back otherRest : List Char} (first : '/' ∉ front) (noAt : '@' ∉ front)
    (otherFirst : '/' ∉ back) :
    front ++ '/' :: rest ++ ['@'] ≠ "<redacted>@".toList ++ (back ++ '/' :: otherRest) ++ ['@'] := by
  intro same
  have texts := List.append_cancel_right same
  rw [← List.append_assoc] at texts
  have noSlash : '/' ∉ "<redacted>@".toList ++ back := by
    intro member
    exact (List.mem_append.mp member).elim (by decide) otherFirst
  have fronts := front_eq first noSlash texts
  apply noAt
  rw [fronts]
  exact List.mem_append_left _ (by decide)

theorem plain_ne_hidden {front rest : List Char} : front ++ '/' :: rest ++ ['@'] ≠ "<redacted>@".toList := by
  intro same
  have slash : '/' ∈ "<redacted>@".toList := by
    rw [← same]
    exact List.mem_append_left _ (List.mem_append_right _ List.mem_cons_self)
  exact absurd slash (by decide)

theorem cut_ne_hidden {back rest : List Char} :
    "<redacted>@".toList ++ (back ++ '/' :: rest) ++ ['@'] ≠ "<redacted>@".toList := by
  intro same
  have lengths := congrArg List.length same
  simp at lengths

theorem alike_of_eq (shows : Shows userinfo shown) (otherShows : Shows other otherShown) (same : shown = otherShown) :
    ShownAlike userinfo other := by
  cases shows with
  | hidden whole =>
      cases otherShows with
      | hidden otherWhole => exact .inl ⟨whole, otherWhole⟩
      | cut => exact absurd same.symm cut_ne_hidden
      | plain => exact absurd same.symm plain_ne_hidden
  | @cut front back rest noSlash first last =>
      cases otherShows with
      | hidden => exact absurd same cut_ne_hidden
      | @cut otherFront otherBack otherRest otherNoSlash otherFirst otherLast =>
          have tails : back ++ '/' :: rest = otherBack ++ '/' :: otherRest :=
            List.append_cancel_left (List.append_cancel_right same)
          refine .inr (.inr ⟨back ++ '/' :: rest, ⟨front, back, rest, rfl, rfl, noSlash, first, last⟩, ?_⟩)
          rw [tails]
          exact ⟨otherFront, otherBack, otherRest, rfl, rfl, otherNoSlash, otherFirst, otherLast⟩
      | plain otherFirst noAt => exact absurd same.symm (plain_ne_cut otherFirst noAt first)
  | plain first noAt =>
      cases otherShows with
      | hidden => exact absurd same plain_ne_hidden
      | cut _ otherFirst _ => exact absurd same (plain_ne_cut first noAt otherFirst)
      | plain => exact .inr (.inl (List.append_cancel_right same))

theorem eq_of_alike (shows : Shows userinfo shown) (otherShows : Shows other otherShown)
    (alike : ShownAlike userinfo other) : shown = otherShown := by
  rcases alike with ⟨whole, otherWhole⟩ | rfl | ⟨tail, ends, otherEnds⟩
  · rw [shows.functional (.hidden whole), otherShows.functional (.hidden otherWhole)]
  · exact shows.functional otherShows
  · obtain ⟨front, back, rest, rfl, rfl, noSlash, first, last⟩ := ends
    obtain ⟨otherFront, -, -, rfl, -, otherNoSlash, -, -⟩ := otherEnds
    rw [shows.functional (.cut noSlash first last), otherShows.functional (.cut otherNoSlash first last)]

end Shows

/-- For a scheme without `://` and a host without `@`, the log is the same for two userinfos
    if and only if they are alike in what it shows. -/
theorem redacted_url_alike_iff {scheme host : String} (absent : ¬ "://".toList <:+: scheme.toList)
    (plain : '@' ∉ host.toList) (userinfo other : String) :
    redactValkeyUrl (urlWith scheme userinfo host) = redactValkeyUrl (urlWith scheme other host) ↔
      ShownAlike userinfo.toList other.toList := by
  obtain ⟨shown, shows⟩ := exists_shows userinfo.toList
  obtain ⟨otherShown, otherShows⟩ := exists_shows other.toList
  have split : ∀ userinfo, (urlWith scheme userinfo host).toList =
      scheme.toList ++ ("://".toList ++ (userinfo.toList ++ '@' :: host.toList)) := by
    intro userinfo
    simp only [urlWith, String.toList_append, List.append_assoc]
    rfl
  have logged := redact_shows absent plain shows (split userinfo)
  have otherLogged := redact_shows absent plain otherShows (split other)
  rw [← String.toList_inj, logged, otherLogged, List.append_left_inj, List.append_right_inj]
  exact ⟨shows.alike_of_eq otherShows, shows.eq_of_alike otherShows⟩

theorem redacted_url_alike_plain :
    redactValkeyUrl (urlWith "redis" "user:hunter2" "valkey:6379/0") =
      redactValkeyUrl (urlWith "redis" ":p@ss?word" "valkey:6379/0") :=
  (redacted_url_alike_iff (by decide) (by decide) "user:hunter2" ":p@ss?word").mpr (.inl (by decide))

/-- A password with a slash is logged as it is. -/
theorem slash_in_password_logged :
    redactValkeyUrl (urlWith "redis" "user:hunter/2" "valkey:6379/0") = "redis://user:hunter/2@valkey:6379/0" ∧
      redactValkeyUrl (urlWith "redis" "user:hunter/2" "valkey:6379/0") ≠
        redactValkeyUrl (urlWith "redis" "user:hunter2" "valkey:6379/0") := by
  decide +kernel

end AiProtect
