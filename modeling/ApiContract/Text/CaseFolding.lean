/-!
# Simple case folding

`foldCase` takes the characters that differ in case alone to one of them. The table lists runs of
characters that are taken elsewhere: `first=target` for one, `first+n=target` for `n` successive
ones, `first:n=target` for `n` of which every second is taken, all in hexadecimal.
-/

namespace ApiContract.Text

/-- A run of characters that folding moves by one distance. -/
structure FoldRun where
  first : Nat
  count : Nat
  step : Nat
  target : Nat

namespace FoldRun

/-- The runs, in the notation explained above. -/
def runsText : String := "41+1a=61 b5=3bc c0+17=e0 d8+7=f8 100:18=101 132:3=133 139:8=13a 14a:17=14b 178=ff 179:3=17a
17f=73 181=253 182:2=183 186=254 187=188 189+2=256 18b=18c 18e=1dd 18f=259 190=25b 191=192
193=260 194=263 196=269 197=268 198=199 19c=26f 19d=272 19f=275 1a0:3=1a1 1a6=280 1a7=1a8
1a9=283 1ac=1ad 1ae=288 1af=1b0 1b1+2=28a 1b3:2=1b4 1b7=292 1b8=1b9 1bc=1bd 1c4=1c6 1c5=1c6
1c7=1c9 1c8=1c9 1ca=1cc 1cb:9=1cc 1de:9=1df 1f1=1f3 1f2:2=1f3 1f6=195 1f7=1bf 1f8:14=1f9 220=19e
222:9=223 23a=2c65 23b=23c 23d=19a 23e=2c66 241=242 243=180 244=289 245=28c 246:5=247 345=3b9
370:2=371 376=377 37f=3f3 386=3ac 388+3=3ad 38c=3cc 38e+2=3cd 391+11=3b1 3a3+9=3c3 3c2=3c3
3cf=3d7 3d0=3b2 3d1=3b8 3d5=3c6 3d6=3c0 3d8:c=3d9 3f0=3ba 3f1=3c1 3f4=3b8 3f5=3b5 3f7=3f8
3f9=3f2 3fa=3fb 3fd+3=37b 400+10=450 410+20=430 460:11=461 48a:1b=48b 4c0=4cf 4c1:7=4c2
4d0:30=4d1 531+26=561 10a0+26=2d00 10c7=2d27 10cd=2d2d 13a0+50=ab70 13f0+6=13f8 1c80=432
1c81=434 1c82=43e 1c83+2=441 1c85=442 1c86=44a 1c87=463 1c88=a64b 1c89=1c8a 1c90+2b=10d0
1cbd+3=10fd 1e00:4b=1e01 1e9b=1e61 1e9e=df 1ea0:30=1ea1 1f08+8=1f00 1f18+6=1f10 1f28+8=1f20
1f38+8=1f30 1f48+6=1f40 1f59:4=1f51 1f68+8=1f60 1f88+8=1f80 1f98+8=1f90 1fa8+8=1fa0 1fb8+2=1fb0
1fba+2=1f70 1fbc=1fb3 1fbe=3b9 1fc8+4=1f72 1fcc=1fc3 1fd8+2=1fd0 1fda+2=1f76 1fe8+2=1fe0
1fea+2=1f7a 1fec=1fe5 1ff8+2=1f78 1ffa+2=1f7c 1ffc=1ff3 2126=3c9 212a=6b 212b=e5 2132=214e
2160+10=2170 2183=2184 24b6+1a=24d0 2c00+30=2c30 2c60=2c61 2c62=26b 2c63=1d7d 2c64=27d
2c67:3=2c68 2c6d=251 2c6e=271 2c6f=250 2c70=252 2c72=2c73 2c75=2c76 2c7e+2=23f 2c80:32=2c81
2ceb:2=2cec 2cf2=2cf3 a640:17=a641 a680:e=a681 a722:7=a723 a732:1f=a733 a779:2=a77a a77d=1d79
a77e:5=a77f a78b=a78c a78d=265 a790:2=a791 a796:a=a797 a7aa=266 a7ab=25c a7ac=261 a7ad=26c
a7ae=26a a7b0=29e a7b1=287 a7b2=29d a7b3=ab53 a7b4:8=a7b5 a7c4=a794 a7c5=282 a7c6=1d8e
a7c7:2=a7c8 a7cb=264 a7cc:8=a7cd a7dc=19b a7f5=a7f6 ff21+1a=ff41 10400+28=10428 104b0+24=104d8
10570+b=10597 1057c+f=105a3 1058c+7=105b3 10594+2=105bb 10c80+33=10cc0 10d50+16=10d70
118a0+20=118c0 16e40+20=16e60 16ea0+19=16ebb 1e900+22=1e922"

/-- The number that hexadecimal digits write. -/
def readHex (cs : List Char) : Nat :=
  cs.foldl
    (fun n c => n * 16 + (if c.isDigit then c.toNat - '0'.toNat else c.toNat - 'a'.toNat + 10)) 0

/-- The run that one entry of the table writes. -/
def ofEntry (cs : List Char) : FoldRun :=
  let isMark (c : Char) : Bool := c = '+' || c = ':' || c = '='
  let first := readHex (cs.takeWhile fun c => !isMark c)
  let target := readHex ((cs.dropWhile (· != '=')).drop 1)
  match cs.dropWhile (fun c => !isMark c) with
  | '+' :: rest => ⟨first, readHex (rest.takeWhile fun c => !isMark c), 1, target⟩
  | ':' :: rest => ⟨first, readHex (rest.takeWhile fun c => !isMark c), 2, target⟩
  | _ => ⟨first, 1, 1, target⟩

/-- The entries of a text, which stand between blanks. -/
def entries : List Char → List (List Char)
  | [] => [[]]
  | c :: rest =>
    if c = ' ' || c = '\n' then [] :: entries rest
    else
      match entries rest with
      | first :: others => (c :: first) :: others
      | [] => [[c]]

/-- The runs, in ascending order. -/
def runs : Array FoldRun := ((entries runsText.toList).map ofEntry).toArray

/-- Where a run takes a code point, if it does. -/
def target? (run : FoldRun) (code : Nat) : Option Nat :=
  if run.first ≤ code && code < run.first + run.count * run.step
      && (code - run.first) % run.step = 0 then
    some (run.target + (code - run.first))
  else none

end FoldRun

/-- The character that stands for all that differ from `c` in case alone. -/
def foldCase (c : Char) : Char :=
  if c.toNat < 0x80 then c.toLower
  else
    match FoldRun.runs.findSome? fun run => run.target? c.toNat with
    | some code => Char.ofNat code
    | none => c

end ApiContract.Text
