import HtmlCatalog.Config
import HtmlCatalog.Proofs.Grammar
import HtmlCatalog.Proofs.UserSources
import HtmlCatalog.Report

/-! Reading the settings at a path. A file holds settings if its bytes are a text in which a map
stands, or nothing at all, and if the values that should be lists of names are. A path that leads
nowhere and a file that does not hold settings should be told apart, and no other fault should come
up. This fails for some paths and files, and for each of them it is said what stands in the way. -/
namespace HtmlCatalog

section Steps

variable {ε α β : Type}

theorem bind_eq_error {x : Except ε α} {f : α → Except ε β} {e : ε} :
    (x >>= f) = .error e ↔ x = .error e ∨ ∃ a, x = .ok a ∧ f a = .error e := by
  cases x with
  | error d => simp [bind, Except.bind]
  | ok a => simp [bind, Except.bind]

theorem mapM_eq_error_iff {f : α → Except ε β} {xs : List α} {e : ε} :
    xs.mapM f = .error e ↔ ∃ before x after, xs = before ++ x :: after ∧
      (∀ y ∈ before, Succeeds (f y)) ∧ f x = .error e := by
  induction xs with
  | nil => simp [pure, Except.pure]
  | cons x xs ih =>
    rw [List.mapM_cons, bind_eq_error]
    constructor
    · rintro (hx | ⟨a, hx, hrest⟩)
      · exact ⟨[], x, xs, rfl, by simp, hx⟩
      · have htail : xs.mapM f = .error e := by
          simpa [bind_eq_error, pure, Except.pure] using hrest
        obtain ⟨before, y, after, rfl, hbefore, hy⟩ := ih.mp htail
        exact ⟨x :: before, y, after, rfl, List.forall_mem_cons.mpr ⟨⟨a, hx⟩, hbefore⟩, hy⟩
    · rintro ⟨before, y, after, hxs, hbefore, hy⟩
      cases before with
      | nil =>
        obtain ⟨rfl, rfl⟩ := List.cons.inj hxs
        exact .inl hy
      | cons z before =>
        obtain ⟨rfl, rfl⟩ := List.cons.inj hxs
        obtain ⟨⟨a, ha⟩, hrest⟩ := List.forall_mem_cons.mp hbefore
        refine .inr ⟨a, ha, ?_⟩
        rw [bind_eq_error]
        exact .inl (ih.mpr ⟨before, y, after, rfl, hrest, hy⟩)

end Steps

namespace Config

open Document

section Names

variable {es : Entries} {key : String}

/-- The keys of the settings that list names, in the order in which they are looked at. -/
def nameKeys : List String := ["globalHtmlTags", "globalHtmlAttributes", "globalHtmlEvents"]

/-- The first key whose value is no list of names. -/
def FirstRefused (es : Entries) (key : String) : Prop :=
  ∃ before after, nameKeys = before ++ key :: after ∧
    (∀ k ∈ before, ListOf IsText (Value.field es k)) ∧ ¬ ListOf IsText (Value.field es key)

theorem FirstRefused.not_listOf (h : FirstRefused es key) :
    ¬ ∀ key ∈ nameKeys, ListOf IsText (Value.field es key) := by
  obtain ⟨before, after, hkeys, -, hrefused⟩ := h
  exact fun hall => hrefused (hall key (by simp [hkeys]))

theorem FirstRefused.unique {key' : String} (h : FirstRefused es key)
    (h' : FirstRefused es key') : key = key' := by
  obtain ⟨before, after, hkeys, hbefore, hrefused⟩ := h
  obtain ⟨before', after', hkeys', hbefore', hrefused'⟩ := h'
  -- If one of them stood before the other, it would be no refused key.
  rcases List.append_eq_append_iff.mp (hkeys.symm.trans hkeys') with
    ⟨between, rfl, hrest⟩ | ⟨between, rfl, hrest⟩
  · cases between with
    | nil => exact (List.cons.inj hrest).1
    | cons k between =>
      obtain ⟨rfl, -⟩ := List.cons.inj hrest
      exact absurd (hbefore' key (by simp)) hrefused
  · cases between with
    | nil => exact (List.cons.inj hrest).1.symm
    | cons k between =>
      obtain ⟨rfl, -⟩ := List.cons.inj hrest
      exact absurd (hbefore key' (by simp)) hrefused'

theorem namesIn_of_not_listOf (h : ¬ ListOf IsText (Value.field es key)) :
    namesIn es key = .error (namesFault key (Value.field es key)) := by
  simp only [ListOf, not_or, Bool.not_eq_false, not_exists, not_and] at h
  obtain ⟨htruthy, hitems⟩ := h
  simp only [namesIn, htruthy, if_true]
  cases hv : Value.field es key with
  | list items =>
    have htexts : texts? items = none := by
      rw [← Option.not_isSome_iff_eq_none, isSome_texts?_iff]
      exact hitems items hv
    simp [htexts]
  | _ => rfl

theorem succeeds_namesIn : Succeeds (namesIn es key) ↔ ListOf IsText (Value.field es key) := by
  constructor
  · intro h
    by_contra hlist
    rw [namesIn_of_not_listOf hlist] at h
    exact not_succeeds_error _ h
  · rintro (hfalsy | ⟨items, hv, hitems⟩)
    · simp [namesIn, hfalsy]
    · obtain ⟨names, htexts⟩ := Option.isSome_iff_exists.mp (isSome_texts?_iff.mpr hitems)
      simp only [namesIn, hv, htexts]
      split_ifs <;> simp

theorem namesIn_eq_error_iff {f : Fault} :
    namesIn es key = .error f ↔
      ¬ ListOf IsText (Value.field es key) ∧ f = namesFault key (Value.field es key) := by
  by_cases h : ListOf IsText (Value.field es key)
  · obtain ⟨names, hnames⟩ := succeeds_namesIn.mpr h
    simp [hnames, h]
  · simp [namesIn_of_not_listOf h, h, eq_comm]

theorem ofMapping_eq_error_iff {f : Fault} :
    ofMapping es = .error f ↔
      ∃ key, FirstRefused es key ∧ f = namesFault key (Value.field es key) := by
  have hmapM : ofMapping es = .error f ↔ nameKeys.mapM (namesIn es) = .error f := by
    simp [ofMapping, nameKeys, bind_eq_error, pure, Except.pure]
  rw [hmapM, mapM_eq_error_iff]
  simp only [succeeds_namesIn, namesIn_eq_error_iff]
  constructor
  · rintro ⟨before, key, after, hkeys, hbefore, hkey, hf⟩
    exact ⟨key, ⟨before, after, hkeys, hbefore, hkey⟩, hf⟩
  · rintro ⟨key, ⟨before, after, hkeys, hbefore, hkey⟩, hf⟩
    exact ⟨before, key, after, hkeys, hbefore, hkey, hf⟩

theorem succeeds_ofMapping :
    Succeeds (ofMapping es) ↔ ∀ key ∈ nameKeys, ListOf IsText (Value.field es key) := by
  have hsteps : Succeeds (ofMapping es) ↔ Succeeds (namesIn es "globalHtmlTags") ∧
      Succeeds (namesIn es "globalHtmlAttributes") ∧ Succeeds (namesIn es "globalHtmlEvents") ∧
      True :=
    succeeds_bind fun _ => succeeds_bind fun _ => succeeds_bind fun _ =>
      iff_of_true (succeeds_pure _) trivial
  simp only [hsteps, succeeds_namesIn, nameKeys, List.forall_mem_cons, List.not_mem_nil,
    false_imp_iff, forall_const]

end Names

section Files

variable {r : Yaml.Reader} {t : FileTree} {p : Path} {bytes : List UInt8} {v : Value}
  {es : Entries} {c : Config} {f : Fault} {e : Yaml.Fault}

/-- The entries of a map; nothing at all is a map without entries. -/
def entries? : Value → Option Entries
  | .null => some []
  | .map es => some es
  | _ => none

/-- A map of settings is read from the bytes, every list of names in it a list of texts. -/
def IsSettings (r : Yaml.Reader) (bytes : List UInt8) : Prop :=
  ∃ v es, r.load bytes = .ok v ∧ entries? v = some es ∧
    ∀ key ∈ nameKeys, ListOf IsText (Value.field es key)

/-- The bytes are malformed or a value is read from them; if that is a map, the first value in it
that should be a list of names and is none can be written in the refusal. -/
def IsReportable (r : Yaml.Reader) (bytes : List UInt8) : Prop :=
  r.load bytes = .error .malformed ∨ ∃ v, r.load bytes = .ok v ∧ ∀ es, entries? v = some es →
    ∀ key, FirstRefused es key → (Value.field es key).isWritable

/-- A fault that refuses a file because of what it holds. -/
def Fault.isRefusal : Fault → Bool
  | .malformed _ | .notAMapping _ | .names _ _ => true
  | _ => false

/-- What reading the settings at a path should come to. It gives settings exactly if a file there
holds some, finds nothing exactly if nothing is there, refuses exactly the files that do not hold
settings, and comes to nothing else. -/
structure Classified (r : Yaml.Reader) (t : FileTree) (p : Path) : Prop where
  gives : (∃ c, read r t p = .ok c) ↔ ∃ bytes, t.lookup p = .ok (.file bytes) ∧ IsSettings r bytes
  misses : read r t p = .error (.missing p) ↔ ∀ e, t.lookup p ≠ .ok e
  refuses : (∃ f, f.isRefusal ∧ read r t p = .error f) ↔
    ∃ bytes, t.lookup p = .ok (.file bytes) ∧ ¬ IsSettings r bytes
  nothingElse : ∀ f, read r t p = .error f → f = .missing p ∨ f.isRefusal

def relocated (t : FileTree) (p : Path) (c : Config) : Config :=
  { c with customHtmlData := .list (c.sources.map (relocate t p.parent)) }

/-- What can come of reading a file, by the first stage that it does not pass. -/
inductive Outcome (r : Yaml.Reader) (t : FileTree) (p : Path) (bytes : List UInt8) :
    Except Fault Config → Prop
  | malformed (h : r.load bytes = .error .malformed) :
      Outcome r t p bytes (.error (.malformed p))
  | unread {e : Yaml.Fault} (h : r.load bytes = .error e) (he : e ≠ .malformed) :
      Outcome r t p bytes (.error (.reading e))
  | notAMapping {v : Value} (h : r.load bytes = .ok v) (hv : entries? v = none) :
      Outcome r t p bytes (.error (.notAMapping v))
  | names {v : Value} {es : Entries} {key : String} (h : r.load bytes = .ok v)
      (hv : entries? v = some es) (hkey : FirstRefused es key) :
      Outcome r t p bytes (.error (namesFault key (Value.field es key)))
  | settings {v : Value} {es : Entries} {c : Config} (h : r.load bytes = .ok v)
      (hv : entries? v = some es) (hc : ofMapping es = .ok c) :
      Outcome r t p bytes (.ok (relocated t p c))

theorem ofFile_of_entries (h : r.load bytes = .ok v) (hv : entries? v = some es) :
    ofFile r t p bytes = (ofMapping es).map (relocated t p) := by
  have hmap : (ofMapping es >>= fun c => pure (relocated t p c)) =
      (ofMapping es).map (relocated t p) := by
    cases ofMapping es <;> rfl
  rw [← hmap]
  simp only [ofFile, h]
  cases v with
  | map fs =>
    obtain rfl := Option.some.inj hv
    rfl
  | scalar s =>
    cases s with
    | null =>
      obtain rfl := Option.some.inj hv
      rfl
    | _ => cases hv
  | _ => cases hv

theorem ofFile_of_no_entries (h : r.load bytes = .ok v) (hv : entries? v = none) :
    ofFile r t p bytes = .error (.notAMapping v) := by
  simp only [ofFile, h]
  cases v with
  | map fs => cases hv
  | scalar s =>
    cases s with
    | null => cases hv
    | _ => rfl
  | _ => rfl

theorem ofFile_of_unread (h : r.load bytes = .error e) (he : e ≠ .malformed) :
    ofFile r t p bytes = .error (.reading e) := by
  cases e with
  | malformed => exact absurd rfl he
  | _ => simp [ofFile, h]

theorem ofFile_of_malformed (h : r.load bytes = .error .malformed) :
    ofFile r t p bytes = .error (.malformed p) := by
  simp [ofFile, h]

theorem ofFile_outcome (r : Yaml.Reader) (t : FileTree) (p : Path) (bytes : List UInt8) :
    Outcome r t p bytes (ofFile r t p bytes) := by
  cases h : r.load bytes with
  | error e =>
    by_cases he : e = .malformed
    · subst he
      exact ofFile_of_malformed h ▸ .malformed h
    · exact ofFile_of_unread h he ▸ .unread h he
  | ok v =>
    cases hv : entries? v with
    | none => exact ofFile_of_no_entries h hv ▸ .notAMapping h hv
    | some es =>
      have hfile : ofFile r t p bytes = (ofMapping es).map (relocated t p) :=
        ofFile_of_entries h hv
      rw [hfile]
      cases hc : ofMapping es with
      | ok c => exact .settings h hv hc
      | error f =>
        obtain ⟨key, hkey, rfl⟩ := ofMapping_eq_error_iff.mp hc
        exact .names h hv hkey

theorem Outcome.isSettings (h : Outcome r t p bytes (.ok c)) : IsSettings r bytes := by
  cases h with
  | settings h hv hc => exact ⟨_, _, h, hv, succeeds_ofMapping.mp ⟨_, hc⟩⟩

theorem Outcome.not_isSettings (h : Outcome r t p bytes (.error f)) : ¬ IsSettings r bytes := by
  rintro ⟨v, es, hload, hes, hnames⟩
  cases h with
  | malformed h => simp [h] at hload
  | unread h he => simp [h] at hload
  | notAMapping h hv =>
    obtain rfl := Except.ok.inj (h.symm.trans hload)
    simp [hes] at hv
  | names h hv hkey =>
    obtain rfl := Except.ok.inj (h.symm.trans hload)
    obtain rfl := Option.some.inj (hv.symm.trans hes)
    exact hkey.not_listOf hnames

theorem isRefusal_namesFault (key : String) (v : Value) :
    (namesFault key v).isRefusal = v.isWritable := by
  unfold namesFault
  split_ifs with h <;> simp [Fault.isRefusal, h]

/-- A file is refused for what it holds exactly if this can be reported. -/
theorem Outcome.isRefusal_iff (h : Outcome r t p bytes (.error f)) :
    f.isRefusal ↔ IsReportable r bytes := by
  cases h with
  | malformed h => exact iff_of_true rfl (.inl h)
  | @unread e h he =>
    refine iff_of_false Bool.false_ne_true ?_
    rintro (hload | ⟨v, hload, -⟩)
    · exact he (Except.error.inj (h.symm.trans hload))
    · simp [h] at hload
  | @notAMapping v h hv =>
    refine iff_of_true rfl (.inr ⟨v, h, fun es hes => ?_⟩)
    simp [hes] at hv
  | @names v es key h hv hkey =>
    rw [isRefusal_namesFault]
    constructor
    · intro hwritable
      refine .inr ⟨v, h, fun fs hfs key' hkey' => ?_⟩
      obtain rfl := Option.some.inj (hv.symm.trans hfs)
      exact hkey.unique hkey' ▸ hwritable
    · rintro (hload | ⟨w, hload, hwritable⟩)
      · simp [h] at hload
      · obtain rfl := Except.ok.inj (h.symm.trans hload)
        exact hwritable es hv key hkey

theorem Outcome.isReportable (h : Outcome r t p bytes (.ok c)) : IsReportable r bytes := by
  obtain ⟨v, es, hload, hes, hnames⟩ := h.isSettings
  refine .inr ⟨v, hload, fun fs hfs key hkey => ?_⟩
  obtain rfl := Option.some.inj (hes.symm.trans hfs)
  exact absurd hnames hkey.not_listOf

theorem namesFault_ne_missing (key : String) (v : Value) (q : Path) :
    namesFault key v ≠ .missing q := by
  unfold namesFault
  split_ifs <;> simp

theorem Outcome.ne_missing {q : Path} (h : Outcome r t p bytes (.error f)) : f ≠ .missing q := by
  cases h with
  | names h hv hkey => exact namesFault_ne_missing _ _ q
  | _ => simp

theorem read_of_file (h : t.lookup p = .ok (.file bytes)) :
    read r t p = ofFile r t p bytes := by
  simp [read, h]

theorem read_of_not_found (h : ∀ e, t.lookup p ≠ .ok e)
    (hlong : t.lookup p ≠ .error .nameTooLong) : read r t p = .error (.missing p) := by
  cases hp : t.lookup p with
  | ok e => exact absurd hp (h e)
  | error o => cases o <;> simp_all [read]

theorem classified_of_file (h : t.lookup p = .ok (.file bytes)) (hbytes : IsReportable r bytes) :
    Classified r t p := by
  have houtcome : Outcome r t p bytes (read r t p) := read_of_file h ▸ ofFile_outcome r t p bytes
  have hfile : ∀ P : List UInt8 → Prop,
      (∃ bytes, t.lookup p = .ok (.file bytes) ∧ P bytes) ↔ P bytes := by
    simp [h]
  cases hread : read r t p with
  | ok c =>
    rw [hread] at houtcome
    have hsettings : IsSettings r bytes := houtcome.isSettings
    exact {
      gives := iff_of_true ⟨c, hread⟩ ((hfile _).mpr hsettings)
      misses := by simp [hread, h]
      refuses := by simp [hfile, hread, hsettings]
      nothingElse := by simp [hread] }
  | error f =>
    rw [hread] at houtcome
    have hrefusal : f.isRefusal := houtcome.isRefusal_iff.mpr hbytes
    have hsettings : ¬ IsSettings r bytes := houtcome.not_isSettings
    exact {
      gives := by simp [hfile, hread, hsettings]
      misses := by simp [hread, h, houtcome.ne_missing]
      refuses := iff_of_true ⟨f, hrefusal, hread⟩ ((hfile _).mpr hsettings)
      nothingElse := fun g hg => .inr (Except.error.inj (hread.symm.trans hg) ▸ hrefusal) }

theorem classified_of_not_found (h : ∀ e, t.lookup p ≠ .ok e)
    (hlong : t.lookup p ≠ .error .nameTooLong) : Classified r t p := by
  have hread : read r t p = .error (.missing p) := read_of_not_found h hlong
  exact {
    gives := by simp [hread, h]
    misses := iff_of_true hread h
    refuses := by simp [hread, h, Fault.isRefusal]
    nothingElse := fun f hf => .inl (Except.error.inj (hread.symm.trans hf)).symm }

def Fault.IsStray (p : Path) (f : Fault) : Prop := f ≠ .missing p ∧ f.isRefusal = false

theorem Classified.not_isStray (h : Classified r t p) (hf : read r t p = .error f) :
    ¬ f.IsStray p := by
  rintro ⟨hmissing, hrefusal⟩
  rcases h.nothingElse f hf with heq | href
  · exact hmissing heq
  · simp [hrefusal] at href

theorem isStray_of_file (h : t.lookup p = .ok (.file bytes)) (hbytes : ¬ IsReportable r bytes) :
    ∃ f, read r t p = .error f ∧ f.IsStray p := by
  have houtcome : Outcome r t p bytes (read r t p) := read_of_file h ▸ ofFile_outcome r t p bytes
  cases hread : read r t p with
  | ok c => exact absurd (hread ▸ houtcome).isReportable hbytes
  | error f =>
    rw [hread] at houtcome
    refine ⟨f, rfl, houtcome.ne_missing, ?_⟩
    rw [← Bool.not_eq_true, houtcome.isRefusal_iff]
    exact hbytes

theorem IsSettings.isText (h : IsSettings r bytes) : Utf8.IsText bytes := by
  obtain ⟨v, es, hload, -⟩ := h
  exact r.isText_of_load hload

/-- With any reader, reading comes to what it should for exactly these paths: ones that are not too
long and do not lead to a directory, and if there is a file it is malformed or has a value, of which
what has to be shown can be written. For every other path it ends with a fault that is none of
those it should end with. Settings stand in texts only. -/
theorem classified_iff (r : Yaml.Reader) (t : FileTree) (p : Path) :
    (Classified r t p ↔ t.lookup p ≠ .error .nameTooLong ∧ t.lookup p ≠ .ok .directory ∧
      ∀ bytes, t.lookup p = .ok (.file bytes) → IsReportable r bytes) ∧
    (¬ Classified r t p → ∃ f, read r t p = .error f ∧ f.IsStray p) ∧
    ∀ bytes, IsSettings r bytes → Utf8.IsText bytes := by
  -- Reading is either classified or ends with a stray fault, never both.
  have hnot : (∃ f, read r t p = .error f ∧ f.IsStray p) → ¬ Classified r t p :=
    fun ⟨_, hread, hstray⟩ h => h.not_isStray hread hstray
  rw [← and_assoc]
  refine ⟨?_, fun bytes h => h.isText⟩
  cases hp : t.lookup p with
  | error o =>
    by_cases hlong : o = .nameTooLong
    · subst hlong
      have hstray : ∃ f, read r t p = .error f ∧ f.IsStray p :=
        ⟨.nameTooLong p, by simp [read, hp], by simp, rfl⟩
      exact ⟨iff_of_false (hnot hstray) (by simp), fun _ => hstray⟩
    · have hclassified : Classified r t p :=
        classified_of_not_found (by simp [hp]) (by simpa [hp] using hlong)
      exact ⟨iff_of_true hclassified (by simpa using hlong), fun h => absurd hclassified h⟩
  | ok e =>
    cases e with
    | directory =>
      have hstray : ∃ f, read r t p = .error f ∧ f.IsStray p :=
        ⟨.isADirectory p, by simp [read, hp], by simp, rfl⟩
      exact ⟨iff_of_false (hnot hstray) (by simp), fun _ => hstray⟩
    | file bytes =>
      by_cases hbytes : IsReportable r bytes
      · have hclassified : Classified r t p := classified_of_file hp hbytes
        exact ⟨iff_of_true hclassified (by simpa using hbytes), fun h => absurd hclassified h⟩
      · have hstray : ∃ f, read r t p = .error f ∧ f.IsStray p := isStray_of_file hp hbytes
        exact ⟨iff_of_false (hnot hstray) (by simpa using hbytes), fun _ => hstray⟩

/-- A file with one word in it, in which a byte stands that no text has there. -/
def undecodable : List UInt8 :=
  Report.bytesOf "globalHtmlTags: [caf" ++ [0xe9] ++ Report.bytesOf "]\n"

def undecodableTree : FileTree := UserData.emptyTree.put ["c.yml"] (.file undecodable)

/-- A file that is no text should be refused, but its fault is one of decoding. -/
theorem not_classified_undecodable :
    read Yaml.standard undecodableTree ⟨"/", ["c.yml"]⟩ =
        .error (.reading (.encoding ⟨0xe9, 20, 1, .continuationByte⟩)) ∧
      ¬ Classified Yaml.standard undecodableTree ⟨"/", ["c.yml"]⟩ := by
  have hread : read Yaml.standard undecodableTree ⟨"/", ["c.yml"]⟩ =
      .error (.reading (.encoding ⟨0xe9, 20, 1, .continuationByte⟩)) := by decide +kernel
  refine ⟨hread, fun h => ?_⟩
  rcases h.nothingElse _ hread with heq | href
  · cases heq
  · cases href

end Files

end Config
end HtmlCatalog
