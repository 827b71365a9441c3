import DocSite.Text.Basic

/-!
# Relative URLs

Links between published pages are relative: they climb from the directory of the linking page to the
last directory that both pages share, and descend from there to the target.

* `Url.segments` : the normalized segments of a path.
* `Url.relative` : the link from one page to another, with a fragment.
* `Url.splitFragment` : a link target without its fragment, and the fragment.
* `Url.absolute` : the public URL of a page.
-/

namespace DocSite

namespace Url

/-- One more segment after those reached so far: an empty one and `.` stay, `..` climbs. -/
def push (reached : List Text) (segment : Text) : List Text :=
  if segment = [] ∨ segment = ['.'] then reached
  else if segment = ['.', '.'] then reached.dropLast
  else reached ++ [segment]

/-- The normalized segments of a path. -/
def segments (path : Text) : List Text := (path.splitOn '/').foldl push []

/-- The directory of a page: what stands before the last slash of its URL. -/
def directory (url : Text) : Text :=
  match Text.splitLast? '/' url with
  | some (dir, _) => dir
  | none => []

/-- Whether a URL is that of a directory. -/
def isDirectory (url : Text) : Bool := url.getLast? = some '/'

/-- The last segment of the URL of a file. -/
def fileName (url : Text) : Text :=
  match Text.splitLast? '/' url with
  | some (_, name) => name
  | none => url

/-- What is left of two lists after their longest common beginning. -/
def dropCommon : List Text → List Text → List Text × List Text
  | a :: as, b :: bs => if a = b then dropCommon as bs else (a :: as, b :: bs)
  | as, bs => (as, bs)

/-- The steps from one directory to a path: up to the last shared directory, then down. -/
def steps (dir target : List Text) : List Text :=
  let (up, down) := dropCommon dir target
  up.map (fun _ => ['.', '.']) ++ down

/-- The link from the page at `page` to the URL `target`, with the fragment `hash` at its end. A
target that is not root-relative is kept, and a link to the page itself is its fragment alone. -/
def relative (page target hash : Text) : Text :=
  if target = page then
    if hash ≠ [] then hash
    else if isDirectory target then ['.', '/']
    else fileName target
  else if target.head? ≠ some '/' then target ++ hash
  else
    let path := Text.join ['/'] (steps (segments (directory page)) (segments target))
    let path := if path = [] then ['.'] else path
    path ++ (if isDirectory target then ['/'] else []) ++ hash

/-- A link target up to its first `#`, and the rest of it. -/
def splitFragment (target : Text) : Text × Text :=
  (target.takeWhile (· ≠ '#'), target.dropWhile (· ≠ '#'))

/-- The public URL of a page: site and path joined by exactly one slash. -/
def absolute (site path : Text) : Text :=
  Text.dropEndWhile (· = '/') site ++ '/' :: path.dropWhile (· = '/')

end Url

end DocSite
