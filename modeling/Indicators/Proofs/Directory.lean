import Indicators.Directory
import Mathlib.Data.List.Induction
import Mathlib.Data.List.Nodup

set_option autoImplicit false

/-! Values put under different names can be put in either order, so a fold over entries that does
not depend on their order can run over their directory instead. -/

namespace Indicators.Directory

variable {α β : Type}

theorem lt_or_lt {name other : String} (h : name ≠ other) : name < other ∨ other < name := by
  by_cases hlt : name < other
  · exact .inl hlt
  · exact .inr (Std.lt_of_le_of_ne (String.not_lt.1 hlt) (Ne.symm h))

theorem put_comm_of_lt {name other : String} (h : name < other) (v w : α) (d : Directory α) :
    (d.put name v).put other w = (d.put other w).put name v := by
  have hnot : ¬ other < name := String.lt_asymm h
  have hne : name ≠ other := fun he => hnot (he ▸ h)
  have hne' := Ne.symm hne
  induction d with
  | nil => simp [put, h, hne, hne', hnot]
  | cons e rest ih =>
    obtain ⟨key, old⟩ := e
    by_cases hname : key = name
    · subst hname
      simp [put, hne, hnot]
    · by_cases hother : key = other
      · subst hother
        simp [put, h, hne, hne', hnot]
      · by_cases hbefore : other < key
        · have hlt : name < key := String.lt_trans h hbefore
          simp [put, h, hne, hne', hnot, hname, hother, hbefore, hlt]
        · by_cases hlt : name < key
          · simp [put, hne, hnot, hname, hother, hbefore, hlt]
          · simp [put, hname, hother, hbefore, hlt, ih]

theorem put_comm {name other : String} (h : name ≠ other) (v w : α) (d : Directory α) :
    (d.put name v).put other w = (d.put other w).put name v := by
  rcases lt_or_lt h with hlt | hlt
  · exact put_comm_of_lt hlt v w d
  · exact (put_comm_of_lt hlt w v d).symm

theorem put_map (f : α → β) (name : String) (v : α) (d : Directory α) :
    (d.put name v).map (fun e => (e.1, f e.2)) =
      Directory.put name (f v) (d.map fun e => (e.1, f e.2)) := by
  induction d with
  | nil => rfl
  | cons e rest ih =>
    simp only [put, List.map_cons]
    split
    · rfl
    · split
      · rfl
      · rw [List.map_cons, ih]

theorem ofList_concat (entries : List (String × α)) (e : String × α) :
    ofList (entries ++ [e]) = (ofList entries).put e.1 e.2 := by
  simp [ofList]

theorem ofList_map (f : α → β) (entries : List (String × α)) :
    ofList (entries.map fun e => (e.1, f e.2)) = (ofList entries).map fun e => (e.1, f e.2) := by
  induction entries using List.reverseRecOn with
  | nil => rfl
  | append_singleton entries e ih =>
    rw [List.map_append, List.map_singleton, ofList_concat, ofList_concat, put_map, ih]

theorem mem_put {name : String} {v : α} {d : Directory α} {e : String × α}
    (h : e ∈ d.put name v) : e = (name, v) ∨ e ∈ d := by
  induction d with
  | nil => exact .inl (List.mem_singleton.1 h)
  | cons first rest ih =>
    unfold put at h
    split at h
    · exact (List.mem_cons.1 h).imp_right (List.mem_cons_of_mem _)
    · split at h
      · exact List.mem_cons.1 h
      · rcases List.mem_cons.1 h with rfl | hrest
        · exact .inr List.mem_cons_self
        · exact (ih hrest).imp_right (List.mem_cons_of_mem _)

theorem mem_ofList {entries : List (String × α)} {e : String × α} (h : e ∈ ofList entries) :
    e ∈ entries := by
  induction entries using List.reverseRecOn with
  | nil => exact h
  | append_singleton entries last ih =>
    rw [ofList_concat] at h
    rcases mem_put h with rfl | hbefore
    · simp
    · simp [ih hbefore]

/-- The names of a directory that was filled from nothing. -/
def Increasing (d : Directory α) : Prop := d.Pairwise fun e f => e.1 < f.1

theorem Increasing.put {d : Directory α} (h : Increasing d) (name : String) (v : α) :
    Increasing (d.put name v) := by
  induction d with
  | nil => exact List.pairwise_singleton _ _
  | cons first rest ih =>
    obtain ⟨hfirst, hrest⟩ := List.pairwise_cons.1 h
    unfold Directory.put
    split
    · next hsame =>
      exact List.pairwise_cons.2 ⟨fun e he => hsame ▸ hfirst e he, hrest⟩
    · next hne =>
      split
      · next hlt =>
        refine List.pairwise_cons.2 ⟨fun e he => ?_, h⟩
        rcases List.mem_cons.1 he with rfl | hafter
        · exact hlt
        · exact String.lt_trans hlt (hfirst e hafter)
      · next hnot =>
        refine List.pairwise_cons.2 ⟨fun e he => ?_, ih hrest⟩
        rcases mem_put he with rfl | hafter
        · exact (lt_or_lt hne).resolve_right hnot
        · exact hfirst e hafter

theorem increasing_ofList (entries : List (String × α)) : Increasing (ofList entries) := by
  induction entries using List.reverseRecOn with
  | nil => exact List.Pairwise.nil
  | append_singleton entries e ih =>
    rw [ofList_concat]
    exact ih.put e.1 e.2

theorem Increasing.nodup {d : Directory α} (h : Increasing d) : (d.map (·.1)).Nodup := by
  refine List.pairwise_map.2 (h.imp fun hlt heq => ?_)
  exact String.lt_irrefl _ (heq ▸ hlt)

theorem lookup_append (name : String) (first second : Directory α) :
    lookup name (first ++ second) = (lookup name first).or (lookup name second) := by
  induction first with
  | nil => rfl
  | cons m rest ih =>
    obtain ⟨key, value⟩ := m
    by_cases h : key = name <;> simp [lookup, h, ih]

theorem lookup_map (f : α → β) (name : String) (d : Directory α) :
    lookup name (d.map fun e => (e.1, f e.2)) = (lookup name d).map f := by
  induction d with
  | nil => rfl
  | cons e rest ih =>
    rw [List.map_cons, lookup, lookup]
    split
    · rfl
    · exact ih

theorem lookup_foldl_put (name : String) (entries : List (String × α)) (start : Directory α) :
    lookup name (entries.foldl (fun built e => built.put e.1 e.2) start) =
      (lookup name entries.reverse).or (lookup name start) := by
  induction entries generalizing start with
  | nil => rfl
  | cons e rest ih =>
    rw [List.foldl_cons, ih, List.reverse_cons, lookup_append, Option.or_assoc]
    congr 1
    by_cases h : e.1 = name
    · rw [← h, lookup_put_self]
      simp [lookup]
    · rw [lookup_put_of_ne (Ne.symm h)]
      simp [lookup, h]

theorem lookup_ofList (name : String) (entries : List (String × α)) :
    lookup name (ofList entries) = lookup name entries.reverse := by
  unfold ofList
  rw [lookup_foldl_put]
  exact Option.or_none

theorem lookup_of_mem {entries : List (String × α)} (distinct : (entries.map (·.1)).Nodup)
    {e : String × α} (he : e ∈ entries) : lookup e.1 entries = some e.2 := by
  induction entries with
  | nil => cases he
  | cons first rest ih =>
    obtain ⟨key, value⟩ := first
    rw [List.map_cons, List.nodup_cons] at distinct
    rcases List.mem_cons.1 he with rfl | hr
    · simp [lookup]
    · have hmem : e.1 ∈ rest.map (·.1) := List.mem_map_of_mem hr
      have hne : key ≠ e.1 := fun h => distinct.1 (h ▸ hmem)
      rw [lookup, if_neg hne]
      exact ih distinct.2 hr

theorem lookup_ofList_of_mem {entries : List (String × α)}
    (distinct : (entries.map (·.1)).Nodup) {e : String × α} (he : e ∈ entries) :
    lookup e.1 (ofList entries) = some e.2 := by
  rw [lookup_ofList]
  refine lookup_of_mem ?_ (List.mem_reverse.2 he)
  rw [List.map_reverse, List.nodup_reverse]
  exact distinct

theorem ofList_zip_injective {names : List String} (distinct : names.Nodup) {vs ws : List α}
    (hv : vs.length = names.length) (hw : ws.length = names.length)
    (h : ofList (names.zip vs) = ofList (names.zip ws)) : vs = ws := by
  have read : ∀ us : List α, us.length = names.length → ∀ (i : Nat) (hi : i < names.length)
      (hu : i < us.length), lookup names[i] (ofList (names.zip us)) = some us[i] := by
    intro us hlen i hi hu
    have hnames : (names.zip us).map (·.1) = names := List.map_fst_zip (by omega)
    have hmem : (names[i], us[i]) ∈ names.zip us := by
      refine List.mem_iff_getElem.2 ⟨i, ?_, List.getElem_zip⟩
      rw [List.length_zip]
      omega
    exact lookup_ofList_of_mem (by rw [hnames]; exact distinct) hmem
  refine List.ext_getElem (hv.trans hw.symm) fun i h1 h2 => ?_
  have hi : i < names.length := hv ▸ h1
  have hvi := read vs hv i hi h1
  rw [h, read ws hw i hi h2] at hvi
  exact (Option.some.inj hvi).symm

theorem mem_of_lookup {name : String} {v : α} {d : Directory α} (h : d.lookup name = some v) :
    (name, v) ∈ d := by
  induction d with
  | nil => cases h
  | cons e rest ih =>
    obtain ⟨key, value⟩ := e
    rw [lookup] at h
    split at h
    · next hkey =>
      cases h
      rw [hkey]
      exact List.mem_cons_self
    · exact List.mem_cons_of_mem _ (ih h)

theorem mem_names {name : String} {d : Directory α} :
    name ∈ d.names ↔ ∃ v, d.lookup name = some v := by
  constructor
  · intro h
    induction d with
    | nil => exact absurd h List.not_mem_nil
    | cons e rest ih =>
      obtain ⟨key, value⟩ := e
      rw [lookup]
      split
      · exact ⟨value, rfl⟩
      · next hne => exact ih ((List.mem_cons.1 h).resolve_left (Ne.symm hne))
  · rintro ⟨v, hv⟩
    exact List.mem_map_of_mem (mem_of_lookup hv)

theorem lookup_eq_none {name : String} {d : Directory α} :
    d.lookup name = none ↔ name ∉ d.names := by
  rw [mem_names, ← Option.ne_none_iff_exists', not_not]

theorem mem_names_put {name other : String} (v : α) (d : Directory α) :
    other ∈ (d.put name v).names ↔ other = name ∨ other ∈ d.names := by
  rw [mem_names, mem_names]
  by_cases h : other = name
  · subst h
    exact iff_of_true ⟨v, lookup_put_self other v d⟩ (.inl rfl)
  · rw [lookup_put_of_ne h]
    exact ⟨.inr, fun hold => hold.resolve_left h⟩

theorem lookup_ofList_last {name : String} {before after : List (String × α)} (v : α)
    (h : ∀ e ∈ after, e.1 ≠ name) :
    lookup name (ofList (before ++ (name, v) :: after)) = some v := by
  have hafter : lookup name after.reverse = none := by
    refine lookup_eq_none.2 fun hm => ?_
    obtain ⟨e, he, hname⟩ := List.mem_map.1 hm
    exact h e (List.mem_reverse.1 he) hname
  rw [lookup_ofList, List.reverse_append, List.reverse_cons, lookup_append, lookup_append, hafter]
  simp [lookup]

theorem Increasing.names {d : Directory α} (h : Increasing d) :
    (Directory.names d).Pairwise (· < ·) := List.pairwise_map.2 h

theorem increasing_of_names {d : Directory α} (h : d.names.Pairwise (· < ·)) : Increasing d :=
  List.pairwise_map.1 h

theorem Increasing.lookup_of_mem {d : Directory α} (h : Increasing d) {e : String × α}
    (he : e ∈ d) : d.lookup e.1 = some e.2 := Directory.lookup_of_mem h.nodup he

theorem put_ne_nil (name : String) (v : α) (d : Directory α) : d.put name v ≠ [] := by
  have hfound := lookup_put_self name v d
  intro h
  rw [h] at hfound
  cases hfound

theorem mem_sorted {name : String} {names : List String} : name ∈ sorted names ↔ name ∈ names := by
  unfold sorted
  rw [mem_names]
  constructor
  · rintro ⟨v, hv⟩
    obtain ⟨_, hname, he⟩ := List.mem_map.1 (mem_ofList (mem_of_lookup hv))
    cases he
    exact hname
  · intro h
    have hmem : (name, ()) ∈ (names.map fun name => (name, ())).reverse :=
      List.mem_reverse.2 (List.mem_map_of_mem h)
    rw [lookup_ofList]
    exact mem_names.1 (List.mem_map_of_mem hmem)

theorem nodup_sorted (names : List String) : (sorted names).Nodup := (increasing_ofList _).nodup

theorem put_perm {name : String} (v : α) {d : Directory α} (h : ∀ e ∈ d, e.1 ≠ name) :
    (d.put name v).Perm ((name, v) :: d) := by
  induction d with
  | nil => exact .refl _
  | cons e rest ih =>
    have hrest := ih fun f hf => h f (List.mem_cons_of_mem _ hf)
    rw [put, if_neg (h e List.mem_cons_self)]
    split
    · exact .refl _
    · exact (hrest.cons e).trans (.swap ..)

theorem ofList_perm {entries : List (String × α)} (distinct : (entries.map (·.1)).Nodup) :
    (ofList entries).Perm entries := by
  induction entries using List.reverseRecOn with
  | nil => exact .refl _
  | append_singleton entries e ih =>
    rw [List.map_append, List.map_singleton, List.nodup_append] at distinct
    have hnew : ∀ f ∈ ofList entries, f.1 ≠ e.1 := fun f hf =>
      distinct.2.2 f.1 (List.mem_map_of_mem (mem_ofList hf)) e.1 (List.mem_singleton.2 rfl)
    rw [ofList_concat]
    exact ((put_perm e.2 hnew).trans ((ih distinct.1).cons e)).trans
      (List.perm_append_singleton e entries).symm

/-- Entries whose names stand in order are the directory of those entries in any order. -/
theorem ofList_eq_of_perm {entries d : List (String × α)} (hd : Increasing d)
    (hp : entries.Perm d) : ofList entries = d := by
  have hentries : (entries.map (·.1)).Nodup := (hp.map _).nodup_iff.2 hd.nodup
  refine List.Perm.eq_of_pairwise ?_ (increasing_ofList entries) hd ((ofList_perm hentries).trans hp)
  intro e f _ _ hlt hgt
  exact absurd hgt (String.lt_asymm hlt)

theorem filter_put (name : String) (v : α) (d : Directory α) :
    (d.put name v).filter (·.1 ≠ name) = d.filter (·.1 ≠ name) := by
  induction d with
  | nil => simp [put]
  | cons e rest ih =>
    unfold put
    split
    · next hsame => simp [hsame]
    · split
      · simp
      · next hne _ => simpa [hne] using ih

theorem ofList_cons {name : String} (v : α) {entries : List (String × α)}
    (h : ∀ e ∈ entries, e.1 ≠ name) :
    ofList ((name, v) :: entries) = (ofList entries).put name v := by
  induction entries using List.reverseRecOn with
  | nil => rfl
  | append_singleton entries e ih =>
    rw [← List.cons_append, ofList_concat, ofList_concat,
      ih fun f hf => h f (List.mem_append_left _ hf), put_comm (h e (by simp))]

theorem ofList_cons_inj {name : String} {v w : α} {es fs : List (String × α)}
    (hes : ∀ e ∈ es, e.1 ≠ name) (hfs : ∀ f ∈ fs, f.1 ≠ name)
    (h : ofList ((name, v) :: es) = ofList ((name, w) :: fs)) :
    v = w ∧ ofList es = ofList fs := by
  rw [ofList_cons v hes, ofList_cons w hfs] at h
  constructor
  · have hfound := congrArg (lookup name) h
    simpa [lookup_put_self] using hfound
  · have hkept := congrArg (List.filter (·.1 ≠ name)) h
    have hall {gs : List (String × α)} (hgs : ∀ g ∈ gs, g.1 ≠ name) :
        (ofList gs).filter (·.1 ≠ name) = ofList gs :=
      List.filter_eq_self.2 fun g hg => by simpa using hgs g (mem_ofList hg)
    rwa [filter_put, filter_put, hall hes, hall hfs] at hkept

section

variable {write : β → String × α → β}

theorem foldl_write {e : String × α} {d : Directory α}
    (h : ∀ b, ∀ f ∈ d, write (write b f) e = write (write b e) f) (b : β) :
    d.foldl write (write b e) = write (d.foldl write b) e := by
  induction d generalizing b with
  | nil => rfl
  | cons f rest ih =>
    rw [List.foldl_cons, List.foldl_cons, ← h b f List.mem_cons_self]
    exact ih (fun b f hf => h b f (List.mem_cons_of_mem _ hf)) _

theorem foldl_put {d : Directory α} (hd : Increasing d) {name : String} {v : α}
    (hself : ∀ b w, write (write b (name, w)) (name, v) = write b (name, v))
    (hcomm : ∀ b, ∀ e ∈ d, e.1 ≠ name →
      write (write b e) (name, v) = write (write b (name, v)) e) (b : β) :
    (d.put name v).foldl write b = write (d.foldl write b) (name, v) := by
  induction d generalizing b with
  | nil => rfl
  | cons first rest ih =>
    obtain ⟨key, old⟩ := first
    obtain ⟨hfirst, hrest⟩ := List.pairwise_cons.1 hd
    have hcomm' : ∀ b, ∀ e ∈ rest, e.1 ≠ name →
        write (write b e) (name, v) = write (write b (name, v)) e :=
      fun b e he => hcomm b e (List.mem_cons_of_mem _ he)
    unfold put
    split
    · next hsame =>
      subst hsame
      have hlater : ∀ b, ∀ e ∈ rest, write (write b e) (key, v) = write (write b (key, v)) e := by
        intro b e he
        refine hcomm' b e he fun hkey => String.lt_irrefl key ?_
        exact hkey ▸ hfirst e he
      rw [List.foldl_cons, List.foldl_cons, ← foldl_write hlater, hself]
    · next hne =>
      split
      · next hlt =>
        refine foldl_write (fun b e he => hcomm b e he ?_) b
        rcases List.mem_cons.1 he with rfl | hafter
        · exact hne
        · intro hname
          exact String.lt_asymm hlt (hname ▸ hfirst e hafter)
      · exact ih hrest hcomm' _

/-- Where the order of different names does not matter and a later value replaces an earlier one,
writing the entries one by one is writing their directory. -/
theorem foldl_ofList {entries : List (String × α)}
    (hself : ∀ b name v w, write (write b (name, w)) (name, v) = write b (name, v))
    (hcomm : ∀ b, ∀ e ∈ entries, ∀ f ∈ entries, e.1 ≠ f.1 →
      write (write b e) f = write (write b f) e) (b : β) :
    (ofList entries).foldl write b = entries.foldl write b := by
  induction entries using List.reverseRecOn with
  | nil => rfl
  | append_singleton entries last ih =>
    have hmem {e : String × α} (he : e ∈ entries) : e ∈ entries ++ [last] :=
      List.mem_append_left _ he
    rw [ofList_concat, foldl_put (increasing_ofList entries) fun b w => hself b _ _ w,
      ih fun b e he f hf => hcomm b e (hmem he) f (hmem hf), List.foldl_append]
    · rfl
    · intro b e he hne
      exact hcomm b e (hmem (mem_ofList he)) last (by simp) hne

end

end Indicators.Directory
