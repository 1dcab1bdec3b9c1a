import InputLeap.Lib.Decimal
import InputLeap.Lib.Search
import InputLeap.Protocol.DragInformation

/-! HTML on the clipboard of Windows has a header that says where the fragment starts and ends. -/

namespace InputLeap.Platform.MSWindowsClipboardHTMLConverter

open InputLeap.Lib
open InputLeap.Protocol.DragInformation (substr)

def ascii (s : String) : List UInt8 := s.toList.map Char.toUInt8

def header : List UInt8 :=
  ascii "Version:0.9\r\nStartHTML:0000000105\r\n" ++ ascii "EndHTML:ZZZZZZZZZZ\r\n" ++
    ascii "StartFragment:XXXXXXXXXX\r\nEndFragment:YYYYYYYYYY\r\n" ++ ascii "<!DOCTYPE><HTML><BODY><!--StartFragment-->"

def footer : List UInt8 := ascii "<!--EndFragment--></BODY></HTML>\r\n"

/-- `%010u`. -/
def tenDigits (n : UInt32) : List UInt8 := (Decimal.encode n.toNat).leftpad 10 48

/-- Ten characters are replaced; without the word, `replace` throws. -/
def replaceTen (word new text : List UInt8) : Option (List UInt8) :=
  (Search.find word text).map fun i => text.take i ++ new ++ text.drop (i + 10)

def doFromIClipboard (data : List UInt8) : Option (List UInt8) :=
  let startFragment : UInt32 := .ofNat header.length
  let endFragment : UInt32 := startFragment + .ofNat data.length
  let endHTML : UInt32 := endFragment + .ofNat footer.length
  (replaceTen (ascii "XXXXXXXXXX") (tenDigits startFragment) header).bind fun text =>
    (replaceTen (ascii "YYYYYYYYYY") (tenDigits endFragment) text).bind fun text =>
      (replaceTen (ascii "ZZZZZZZZZZ") (tenDigits endHTML) text).map fun text => text ++ data ++ footer

def isNewline (b : UInt8) : Bool := b == 13 || b == 10

def colon : UInt8 := 58

def findArg (data name : List UInt8) : Option (List UInt8) :=
  match Search.find name data with
  | none => some []
  | some i =>
    match Search.findFirst (fun b => b == colon || isNewline b) data i with
    | none => some []
    | some i =>
      if data.getD i 0 ≠ colon then some []
      else
        match Search.findFirst (fun b => Decimal.isDigit b || isNewline b) data (i + 1) with
        | none => some []
        | some i =>
          if isNewline (data.getD i 0) then some []
          else
            let j := (Search.findFirst (fun b => !Decimal.isDigit b) data i).getD data.length
            substr data i (j - i)

/-- A number that an int cannot hold has any result. -/
def atoi (overflow : List UInt8 → Int32) (digits : List UInt8) : Int32 :=
  if Decimal.decode digits < 2 ^ 31 then .ofNat (Decimal.decode digits) else overflow digits

def doToIClipboard (overflow : List UInt8 → Int32) (data : List UInt8) : Option (List UInt8) :=
  (findArg data (ascii "StartFragment")).bind fun startArg =>
    (findArg data (ascii "EndFragment")).bind fun endArg =>
      if startArg = [] ∨ endArg = [] then some []
      else
        let start := (atoi overflow startArg).toInt
        let finish := (atoi overflow endArg).toInt
        if start ≤ 0 ∨ finish ≤ 0 ∨ start ≥ finish then some []
        else substr data start.toNat (finish - start).toNat

section Digits

lemma isDigit_tenDigits {n : UInt32} {b : UInt8} (h : b ∈ tenDigits n) : Decimal.isDigit b = true := by
  rw [tenDigits, List.leftpad, List.mem_append] at h
  rcases h with h | h
  · obtain rfl := List.eq_of_mem_replicate h
    rfl
  · exact Decimal.isDigit_of_mem_encode h

lemma not_mem_tenDigits {n : UInt32} {b : UInt8} (h : Decimal.isDigit b = false) : b ∉ tenDigits n := by
  intro hmem
  rw [isDigit_tenDigits hmem] at h
  exact Bool.noConfusion h

lemma foldl_zeros (k : ℕ) : (List.replicate k (48 : UInt8)).foldl (fun n b => 10 * n + (b.toNat - 48)) 0 = 0 := by
  induction k with
  | zero => rfl
  | succ k ih => simpa [List.replicate_succ] using ih

lemma decode_tenDigits (n : UInt32) : Decimal.decode (tenDigits n) = n.toNat := by
  rw [tenDigits, List.leftpad, Decimal.decode, List.foldl_append, foldl_zeros]
  exact Decimal.decode_encode n.toNat

lemma length_tenDigits (n : UInt32) : (tenDigits n).length = 10 := by
  have hlt : n.toNat < 10 ^ 10 := lt_of_lt_of_le n.toNat_lt (by decide)
  rw [tenDigits, List.length_leftpad, max_eq_left (Decimal.encode_length_le (by decide) hlt)]

lemma exists_tenDigits (n : UInt32) : ∃ b s, tenDigits n = b :: s := by
  apply List.exists_cons_of_length_pos
  rw [length_tenDigits]
  decide

end Digits

section Header

def front : List UInt8 := ascii "Version:0.9\r\nStartHTML:0000000105\r\nEndHTML:"
def middle : List UInt8 := ascii "\r\nStartFragment:"
def between : List UInt8 := ascii "\r\nEndFragment:"
def behind : List UInt8 := ascii "\r\n<!DOCTYPE><HTML><BODY><!--StartFragment-->"

/-- The characters of a literal stand in it as they are, while those of a string are decoded. -/
lemma ascii_ofList (s : List Char) : ascii (String.ofList s) = s.map Char.toUInt8 := by rw [ascii, String.toList_ofList]

lemma header_eq : header = front ++ (ascii "ZZZZZZZZZZ" ++ (middle ++ (ascii "XXXXXXXXXX" ++ (between ++
    (ascii "YYYYYYYYYY" ++ behind))))) := by
  rw [header, front, middle, between, behind]
  iterate 11 rw [ascii_ofList]
  decide

lemma length_header : header.length = 147 := by
  rw [header]
  iterate 4 rw [ascii_ofList]
  rfl

lemma replaceTen_eq (word : List UInt8) {a : UInt8} {before : List UInt8} (hfirst : word.head? = some a) (hlen : word.length = 10)
    (h : a ∉ before) (new rest : List UInt8) :
    replaceTen word new (before ++ (word ++ rest)) = some (before ++ (new ++ rest)) := by
  have hdrop : (before ++ (word ++ rest)).drop (before.length + 10) = rest := by
    rw [← List.append_assoc, List.drop_left' (by rw [List.length_append, hlen])]
  have hfind : Search.find word (before ++ (word ++ rest)) = some before.length := by
    obtain ⟨w, rfl⟩ := List.head?_eq_some_iff.mp hfirst
    exact Search.find_at h rest
  rw [replaceTen, hfind, Option.map_some, List.take_left, hdrop, List.append_assoc]

def filled (start finish html : UInt32) : List UInt8 :=
  front ++ (tenDigits html ++ (middle ++ (tenDigits start ++ (between ++ (tenDigits finish ++ behind)))))

lemma length_filled (start finish html : UInt32) : (filled start finish html).length = header.length := by
  rw [header_eq]
  iterate 3 rw [ascii_ofList]
  simp only [filled, List.length_append, length_tenDigits, List.length_map, List.length_cons, List.length_nil, Nat.reduceAdd]

lemma doFromIClipboard_eq (data : List UInt8) : ∃ html, doFromIClipboard data =
    some (filled (.ofNat header.length) (.ofNat header.length + .ofNat data.length) html ++ data ++ footer) := by
  have hx : 88 ∉ front ++ (ascii "ZZZZZZZZZZ" ++ middle) := by
    rw [front, middle]
    iterate 3 rw [ascii_ofList]
    decide
  have hy (n : UInt32) : 89 ∉ front ++ (ascii "ZZZZZZZZZZ" ++ (middle ++ (tenDigits n ++ between))) := by
    rw [front, middle, between]
    iterate 4 rw [ascii_ofList]
    simp only [List.mem_append, not_or]
    exact ⟨by decide, by decide, by decide, not_mem_tenDigits (by decide), by decide⟩
  have hz : 90 ∉ front := by
    rw [front, ascii_ofList]
    decide
  refine ⟨.ofNat header.length + .ofNat data.length + .ofNat footer.length, ?_⟩
  simp only [doFromIClipboard]
  generalize UInt32.ofNat header.length = start
  generalize start + UInt32.ofNat data.length = finish
  generalize finish + UInt32.ofNat footer.length = html
  have hfirst := replaceTen_eq (ascii "XXXXXXXXXX") (by decide) (by decide) hx (tenDigits start)
    (between ++ (ascii "YYYYYYYYYY" ++ behind))
  have hsecond := replaceTen_eq (ascii "YYYYYYYYYY") (by decide) (by decide) (hy start) (tenDigits finish) behind
  have hthird := replaceTen_eq (ascii "ZZZZZZZZZZ") (by decide) (by decide) hz (tenDigits html)
    (middle ++ (tenDigits start ++ (between ++ (tenDigits finish ++ behind))))
  simp only [List.append_assoc] at hfirst hsecond hthird
  rw [header_eq, hfirst, Option.bind_some, hsecond, Option.bind_some, hthird, Option.map_some, filled]

end Header

section Arguments

variable {before name digits rest : List UInt8} {b : UInt8}

lemma isNewline_of_isDigit (h : Decimal.isDigit b = true) : isNewline b = false := by
  by_contra hb
  rw [Bool.not_eq_false, isNewline, Bool.or_eq_true, beq_iff_eq, beq_iff_eq] at hb
  rcases hb with rfl | rfl
  · exact absurd h (by decide)
  · exact absurd h (by decide)

lemma getD_behind (before rest : List UInt8) (b : UInt8) : (before ++ b :: rest).getD before.length 0 = b := by simp

lemma findArg_eq (hfind : Search.find name (before ++ (name ++ colon :: (digits ++ b :: rest))) = some before.length)
    (hname : ∀ c ∈ name, (c == colon || isNewline c) = false) (hne : digits ≠ [])
    (hdigits : ∀ c ∈ digits, Decimal.isDigit c = true) (hb : Decimal.isDigit b = false) :
    findArg (before ++ (name ++ colon :: (digits ++ b :: rest))) name = some digits := by
  obtain ⟨d, ds, rfl⟩ := List.exists_cons_of_ne_nil hne
  have hd := hdigits d List.mem_cons_self
  generalize hdata : before ++ (name ++ colon :: (d :: ds ++ b :: rest)) = data at *
  have hsplit : data = before ++ name ++ [colon] ++ (d :: ds ++ b :: rest) := by simp [← hdata]
  have hlength : (before ++ name ++ [colon]).length = before.length + name.length + 1 := by simp [Nat.add_assoc]
  have hcolon : Search.findFirst (fun c => c == colon || isNewline c) data before.length =
      some (before.length + name.length) := Search.findFirst_eq hdata.symm hname rfl
  have hcolonAt : data.getD (before.length + name.length) 0 = colon := by
    rw [← hdata, ← List.append_assoc, ← List.length_append]
    exact getD_behind (before ++ name) _ colon
  have hdigit : Search.findFirst (fun c => Decimal.isDigit c || isNewline c) data (before.length + name.length + 1) =
      some (before.length + name.length + 1) := by
    have hnothing : data = before ++ name ++ [colon] ++ ([] ++ d :: (ds ++ b :: rest)) := hsplit
    rw [← hlength]
    exact Search.findFirst_eq hnothing (fun c hc => absurd hc List.not_mem_nil) (by simp [hd])
  have hdigitAt : data.getD (before.length + name.length + 1) 0 = d := by
    rw [← hlength, hsplit]
    exact getD_behind (before ++ name ++ [colon]) _ d
  have hend : Search.findFirst (fun c => !Decimal.isDigit c) data (before.length + name.length + 1) =
      some (before.length + name.length + 1 + (d :: ds).length) := by
    rw [← hlength]
    exact Search.findFirst_eq hsplit (fun c hc => by simp [hdigits c hc]) (by simp [hb])
  have hsubstr : substr data (before.length + name.length + 1) (d :: ds).length = some (d :: ds) := by
    rw [substr, ← hlength, hsplit, if_pos (by simp), List.drop_left, List.take_left]
  simp only [findArg, hfind, hcolon, hcolonAt, hdigit, hdigitAt, isNewline_of_isDigit hd, hend, Option.getD_some,
    Nat.add_sub_cancel_left]
  exact hsubstr

lemma findArg_isSome (data name : List UInt8) : (findArg data name).isSome = true := by
  simp only [findArg]
  split
  · rfl
  split
  · rfl
  split_ifs
  · rfl
  split
  · rfl
  next i hi =>
  split_ifs
  · rfl
  · rw [substr, if_pos (Search.findFirst_lt hi).le]
    rfl

end Arguments

section RoundTrip

/-- `StartHTML` and `EndHTML` stand in front of the words that are looked for, and start as they do. -/
def versionLines : List UInt8 := ascii "Version:0.9\r\n"
def startLine : List UInt8 := ascii "TML:0000000105\r\nEndHTML:"
def startLines : List UInt8 := ascii "Version:0.9\r\nStartHTML:0000000105\r\n"

lemma front_eq_start : front = versionLines ++ 83 :: (ascii "tart" ++ 72 :: startLine) := by
  rw [front, versionLines, startLine]
  iterate 4 rw [ascii_ofList]
  rfl

lemma front_eq_end : front = startLines ++ 69 :: (ascii "nd" ++ 72 :: ascii "TML:") := by
  rw [front, startLines]
  iterate 4 rw [ascii_ofList]
  rfl

lemma startFragment_eq : ascii "StartFragment" = 83 :: (ascii "tart" ++ 70 :: ascii "ragment") := by
  iterate 3 rw [ascii_ofList]
  rfl

lemma endFragment_eq : ascii "EndFragment" = 69 :: (ascii "nd" ++ 70 :: ascii "ragment") := by
  iterate 3 rw [ascii_ofList]
  rfl

lemma middle_eq : middle = [13, 10] ++ (ascii "StartFragment" ++ [colon]) := by
  rw [middle]
  iterate 2 rw [ascii_ofList]
  rfl

lemma between_eq : between = 13 :: 10 :: (ascii "EndFragment" ++ [colon]) := by
  rw [between]
  iterate 2 rw [ascii_ofList]
  rfl

lemma exists_behind : ∃ rest, behind = 13 :: rest := by
  rw [behind, ascii_ofList]
  exact ⟨_, rfl⟩

variable (start finish html : UInt32) (text : List UInt8)

lemma findArg_start : findArg (filled start finish html ++ text) (ascii "StartFragment") = some (tenDigits start) := by
  have hskip : 83 ∉ ascii "tart" ++ 72 :: (startLine ++ (tenDigits html ++ [13, 10])) := by
    simp only [List.mem_append, List.mem_cons, not_or]
    exact ⟨by decide, by decide, by decide, not_mem_tenDigits (by decide), by decide, by decide, List.not_mem_nil⟩
  have hfilled : filled start finish html ++ text =
      versionLines ++ 83 :: (ascii "tart" ++ 72 :: (startLine ++ (tenDigits html ++ [13, 10]))) ++ (ascii "StartFragment" ++
        colon :: (tenDigits start ++ 13 :: (10 :: (ascii "EndFragment" ++ [colon]) ++ tenDigits finish ++ behind ++ text))) := by
    rw [filled, front_eq_start, middle_eq, between_eq]
    simp only [List.append_assoc, List.cons_append, List.nil_append]
  have hfind := Search.find_second (b := 70) (u := ascii "ragment") (by decide) (v := versionLines) (by decide) hskip
    (colon :: (tenDigits start ++ 13 :: (10 :: (ascii "EndFragment" ++ [colon]) ++ tenDigits finish ++ behind ++ text)))
  rw [← startFragment_eq, ← List.append_assoc] at hfind
  obtain ⟨d, ds, hdigits⟩ := exists_tenDigits start
  rw [hfilled]
  exact findArg_eq hfind (by decide +kernel) (by simp [hdigits]) (fun c hc => isDigit_tenDigits hc) (by decide)

lemma findArg_end : findArg (filled start finish html ++ text) (ascii "EndFragment") = some (tenDigits finish) := by
  obtain ⟨rest, hbehind⟩ := exists_behind
  have hskip : 69 ∉ ascii "nd" ++ 72 :: (ascii "TML:" ++ (tenDigits html ++ (middle ++ (tenDigits start ++ [13, 10])))) := by
    simp only [List.mem_append, List.mem_cons, not_or]
    exact ⟨by decide, by decide, by decide, not_mem_tenDigits (by decide), by decide, not_mem_tenDigits (by decide),
      by decide, by decide, List.not_mem_nil⟩
  have hfilled : filled start finish html ++ text =
      startLines ++ 69 :: (ascii "nd" ++ 72 :: (ascii "TML:" ++ (tenDigits html ++ (middle ++ (tenDigits start ++ [13, 10]))))) ++
        (ascii "EndFragment" ++ colon :: (tenDigits finish ++ 13 :: (rest ++ text))) := by
    rw [filled, front_eq_end, between_eq, hbehind]
    simp only [List.append_assoc, List.cons_append, List.nil_append]
  have hfind := Search.find_second (b := 70) (u := ascii "ragment") (by decide) (v := startLines) (by decide) hskip
    (colon :: (tenDigits finish ++ 13 :: (rest ++ text)))
  rw [← endFragment_eq, ← List.append_assoc] at hfind
  obtain ⟨d, ds, hdigits⟩ := exists_tenDigits finish
  rw [hfilled]
  exact findArg_eq hfind (by decide +kernel) (by simp [hdigits]) (fun c hc => isDigit_tenDigits hc) (by decide)

end RoundTrip

section Fragments

variable (overflow : List UInt8 → Int32)

def argument (data name : List UInt8) : ℤ := (atoi overflow ((findArg data name).getD [])).toInt

def FragmentInside (data : List UInt8) : Prop :=
  0 < argument overflow data (ascii "StartFragment") →
    argument overflow data (ascii "StartFragment") < argument overflow data (ascii "EndFragment") →
      argument overflow data (ascii "StartFragment") ≤ data.length

instance (data : List UInt8) : Decidable (FragmentInside overflow data) := inferInstanceAs (Decidable (_ → _))

lemma argument_nil {data name : List UInt8} (h : findArg data name = some []) : argument overflow data name = 0 := by
  rw [argument, h]
  rfl

lemma argument_tenDigits {data name : List UInt8} {n : UInt32} (h : findArg data name = some (tenDigits n))
    (hn : n.toNat < 2 ^ 31) : argument overflow data name = n.toNat := by
  rw [argument, h, Option.getD_some, atoi, decode_tenDigits, if_pos hn, Int32.toInt_ofNat_of_lt hn]

lemma doToIClipboard_eq (data : List UInt8) : doToIClipboard overflow data =
    if 0 < argument overflow data (ascii "StartFragment") ∧
        argument overflow data (ascii "StartFragment") < argument overflow data (ascii "EndFragment") then
      substr data (argument overflow data (ascii "StartFragment")).toNat
        (argument overflow data (ascii "EndFragment") - argument overflow data (ascii "StartFragment")).toNat
    else some [] := by
  obtain ⟨startArg, hstart⟩ := Option.isSome_iff_exists.mp (findArg_isSome data (ascii "StartFragment"))
  obtain ⟨endArg, hend⟩ := Option.isSome_iff_exists.mp (findArg_isSome data (ascii "EndFragment"))
  have hs : argument overflow data (ascii "StartFragment") = (atoi overflow startArg).toInt := by
    rw [argument, hstart, Option.getD_some]
  have he : argument overflow data (ascii "EndFragment") = (atoi overflow endArg).toInt := by
    rw [argument, hend, Option.getD_some]
  rw [doToIClipboard, hstart, Option.bind_some, hend, Option.bind_some]
  by_cases hmissing : startArg = [] ∨ endArg = []
  · rw [if_pos hmissing, if_neg]
    rintro ⟨hpos, hlt⟩
    rcases hmissing with rfl | rfl
    · rw [argument_nil overflow hstart] at hpos
      exact lt_irrefl 0 hpos
    · rw [argument_nil overflow hend] at hlt
      exact lt_asymm hpos hlt
  rw [if_neg hmissing, hs, he]
  dsimp only
  by_cases hordered : 0 < (atoi overflow startArg).toInt ∧ (atoi overflow startArg).toInt < (atoi overflow endArg).toInt
  · rw [if_neg (by omega), if_pos hordered]
  · rw [if_pos (by omega), if_neg hordered]

lemma doToIClipboard_isSome (data : List UInt8) :
    (doToIClipboard overflow data).isSome = true ↔ FragmentInside overflow data := by
  rw [doToIClipboard_eq, FragmentInside]
  split_ifs with h
  · have hsome : (substr data (argument overflow data (ascii "StartFragment")).toNat
        (argument overflow data (ascii "EndFragment") - argument overflow data (ascii "StartFragment")).toNat).isSome = true ↔
          (argument overflow data (ascii "StartFragment")).toNat ≤ data.length := by
      rw [substr]
      split_ifs with hle
      · exact iff_of_true rfl hle
      · exact iff_of_false Bool.false_ne_true hle
    rw [hsome]
    constructor
    · intro hle _ _
      omega
    · intro hle
      have := hle h.1 h.2
      omega
  · exact iff_of_true rfl fun hpos hlt => absurd ⟨hpos, hlt⟩ h

lemma doToIClipboard_doFromIClipboard {d : List UInt8} (hne : d ≠ []) (hlen : d.length < 2 ^ 31 - 1000) :
    (doFromIClipboard d).bind (doToIClipboard overflow) = some d := by
  obtain ⟨html, hfrom⟩ := doFromIClipboard_eq d
  have hheader := length_header
  have hpos := List.length_pos_iff.mpr hne
  have hfinish : (UInt32.ofNat header.length + UInt32.ofNat d.length).toNat = 147 + d.length := by
    rw [hheader, UInt32.toNat_add, UInt32.toNat_ofNat', UInt32.toNat_ofNat']
    omega
  have hstart : (UInt32.ofNat header.length).toNat = 147 := by rw [hheader]; rfl
  have hlength := length_filled (.ofNat header.length) (.ofNat header.length + .ofNat d.length) html
  have hs := argument_tenDigits overflow (findArg_start (.ofNat header.length) (.ofNat header.length + .ofNat d.length) html
    (d ++ footer)) (by rw [hstart]; decide)
  have he := argument_tenDigits overflow (findArg_end (.ofNat header.length) (.ofNat header.length + .ofNat d.length) html
    (d ++ footer)) (by rw [hfinish]; omega)
  rw [hstart] at hs
  rw [hfinish] at he
  rw [hfrom, Option.bind_some, List.append_assoc, doToIClipboard_eq, hs, he, if_pos (by omega), substr,
    if_pos (by rw [List.length_append, hlength, hheader]; omega)]
  have hdrop : (((147 : ℕ) : ℤ)).toNat = (filled (.ofNat header.length) (.ofNat header.length + .ofNat d.length) html).length := by
    rw [hlength, hheader]
    rfl
  have htake : (((147 + d.length : ℕ) : ℤ) - ((147 : ℕ) : ℤ)).toNat = d.length := by omega
  rw [hdrop, htake, List.drop_left, List.take_left]

/-- No exception where the fragment starts inside the text, and nothing lost on the way to another program and back. -/
theorem html_conversion_iff (data : List UInt8) :
    ((doToIClipboard overflow data).isSome = true ↔ FragmentInside overflow data) ∧
      ∀ d : List UInt8, d ≠ [] → d.length < 2 ^ 31 - 1000 → (doFromIClipboard d).bind (doToIClipboard overflow) = some d :=
  ⟨doToIClipboard_isSome overflow data, fun _ hne hlen => doToIClipboard_doFromIClipboard overflow hne hlen⟩

theorem html_throws : ¬ ∃ overflow, (∀ data, (doToIClipboard overflow data).isSome = true) ∧
    ∀ d : List UInt8, d ≠ [] → d.length < 2 ^ 31 - 1000 → (doFromIClipboard d).bind (doToIClipboard overflow) = some d := by
  rintro ⟨overflow, h, -⟩
  have hstart : findArg (ascii "StartFragment:99 EndFragment:100") (ascii "StartFragment") = some (ascii "99") := by
    decide
  have hend : findArg (ascii "StartFragment:99 EndFragment:100") (ascii "EndFragment") = some (ascii "100") := by
    decide
  have hs : argument overflow (ascii "StartFragment:99 EndFragment:100") (ascii "StartFragment") = 99 := by
    rw [argument, hstart, Option.getD_some, atoi, if_pos (by decide)]
    decide
  have he : argument overflow (ascii "StartFragment:99 EndFragment:100") (ascii "EndFragment") = 100 := by
    rw [argument, hend, Option.getD_some, atoi, if_pos (by decide)]
    decide
  have hinside := (doToIClipboard_isSome overflow _).mp (h (ascii "StartFragment:99 EndFragment:100"))
  rw [FragmentInside, hs, he] at hinside
  exact absurd (hinside (by decide) (by decide)) (by decide)

end Fragments

end InputLeap.Platform.MSWindowsClipboardHTMLConverter
