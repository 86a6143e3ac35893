import Habeny.Installers.Values
import Habeny.Lib.Replace

/-!
# The scripts of the installers

The scripts that install an agent in a container, with the values in them.  Where a package could
not be copied into the container, the script downloads it there.

Three of the scripts are f-strings, and the fourth has two placeholders that are replaced one after
the other; as no host has an underscore, this is the same (`ossecScript_eq`).
-/

namespace Habeny.Installers

open Habeny.Lib CodeText
open Habeny.Lib.Shell (Piece fill)

/-- What stands in the scripts. -/
inductive Field where
  | container
  | host
  | group
  | version
  | token
  deriving DecidableEq

abbrev Line := List (Piece Field)

/-- The code points of a literal of ASCII, which are its bytes. -/
def ascii (s : String) : CodeText := s.toByteArray.data.toList.map UInt8.toNat

example : ascii "sed -i \"s|a|b|\"" = lit "sed -i \"s|a|b|\"" := by decide

def txt (s : String) : Piece Field := .text (ascii s)

/-- Lines, each with the newline that ends it. -/
def ofLines (lines : List Line) : List (Piece Field) :=
  lines.flatMap fun line => line ++ [.text [newline]]

/-- A path under `/tmp`. -/
def tmp (file : Line) : Line := txt "/tmp/" :: file

/-- A block that stands between two lines, which is empty unless something is to be downloaded. -/
def blockLines (download : Bool) (lines : List Line) : List Line :=
  if download then [[]] ++ lines ++ [[]] else [[]]

/-- Download a package in the container. -/
def debDownload (curl : String) (deb url : Line) : List Line := [
    [txt "if command -v curl >/dev/null 2>&1; then"],
    [txt curl] ++ deb ++ [txt "\" \""] ++ url ++ [txt "\""],
    [txt "elif command -v wget >/dev/null 2>&1; then"],
    [txt "  wget -q -O \""] ++ deb ++ [txt "\" \""] ++ url ++ [txt "\""],
    [txt "else"],
    [txt "  echo \"ERROR: neither curl nor wget available\""],
    [txt "  exit 1"],
    [txt "fi"]]

/-! ## Wazuh -/

/-- `deb_name` -/
def wazuhDeb : Line := [txt "wazuh-agent_", .value .version, txt "-1_amd64.deb"]

/-- `deb_url` -/
def wazuhUrl : Line :=
  txt "https://packages.wazuh.com/4.x/apt/pool/main/w/wazuh-agent/" :: wazuhDeb

/-- `wazuh_script` -/
def wazuhScript (download : Bool) : List (Piece Field) := ofLines <| [
    [txt "#!/bin/bash"],
    [txt "set -e"],
    [txt "export DEBIAN_FRONTEND=noninteractive"],
    [],
    [txt "export WAZUH_MANAGER=", .quoted .host],
    [txt "export WAZUH_AGENT_GROUP=", .quoted .group],
    [txt "export WAZUH_AGENT_NAME=", .quoted .container]] ++
  blockLines download (debDownload "  curl -sL -o \"" (tmp wazuhDeb) wazuhUrl) ++ [
    [txt "dpkg -i \""] ++ tmp wazuhDeb ++ [txt "\" || apt-get install -f -y"],
    [txt "rm -f \""] ++ tmp wazuhDeb ++ [txt "\""],
    [],
    [txt "# Configure agent"],
    [txt "sed -i \"s|<address>.*</address>|<address>", .value .host, txt ("</address>|\" " ++
      "/var/ossec/etc/ossec.conf 2>/dev/null || true")],
    [txt "sed -i \"s|<config-profile>.*</config-profile>|<config-profile>", .value .group,
      txt "</config-profile>|\" /var/ossec/etc/ossec.conf 2>/dev/null || true"],
    [txt "echo \"", .value .container, txt "\" > /var/ossec/etc/.agent_name 2>/dev/null || true"],
    [],
    [txt "systemctl daemon-reload 2>/dev/null || true"],
    [txt "systemctl enable wazuh-agent 2>/dev/null || true"],
    [txt "systemctl start wazuh-agent 2>/dev/null || true"],
    [txt "sleep 3"],
    [],
    [txt ("systemctl status wazuh-agent --no-pager 2>/dev/null || service wazuh-agent status " ++
      "2>/dev/null || /var/ossec/bin/wazuh-control status")],
    [],
    [txt "echo \"=== Wazuh Agent Information ===\""],
    [txt "echo \"Agent Name: ", .value .container, txt "\""],
    [txt "echo \"Manager: ", .value .host, txt "\""],
    [txt "echo \"Group: ", .value .group, txt "\""],
    [txt "echo \"Version: ", .value .version, txt "\""],
    [txt ("AGENT_ID=$(grep 'id=' /var/ossec/etc/client.keys 2>/dev/null | cut -d' ' -f2 | cut " ++
      "-d'\"' -f1 2>/dev/null || echo 'Pending registration')")],
    [txt "echo \"Agent ID: $AGENT_ID\""]]

/-! ## OSSEC -/

/-- `ossec_script`, where the values stand for the placeholders. -/
def ossecLines : List Line := [
    [txt "#!/bin/bash"],
    [txt "set -euo pipefail"],
    [txt "export DEBIAN_FRONTEND=noninteractive"],
    [],
    [txt "MANAGER_IP=\"", .value .host, txt "\""],
    [txt "MANAGER_PORT=\"1516\""],
    [txt "OSSEC_CONF=\"/var/ossec/etc/ossec.conf\""],
    [],
    [txt ("APT_OPTS=\"-o Acquire::ForceIPv4=true -o Acquire::Retries=5 -o " ++
      "Acquire::http::Timeout=20 -o Acquire::https::Timeout=20\"")],
    [],
    [txt "ensure_dns() \x7b"],
    [txt "  GW_DNS=$(ip route | awk '/default/ \x7bprint $3; exit\x7d')"],
    [txt "  \x7b"],
    [txt "    if [ -n \"$GW_DNS\" ]; then"],
    [txt "      echo \"nameserver $GW_DNS\""],
    [txt "    fi"],
    [txt "    echo \"nameserver 1.1.1.1\""],
    [txt "    echo \"nameserver 8.8.8.8\""],
    [txt "    echo \"options timeout:1 attempts:3\""],
    [txt "  \x7d > /etc/resolv.conf"],
    [txt "\x7d"],
    [],
    [txt "if ! getent ahostsv4 archive.ubuntu.com >/dev/null 2>&1; then"],
    [txt "  ensure_dns"],
    [txt "fi"],
    [],
    [txt "if [ -f /etc/gai.conf ] && ! grep -q \"precedence ::ffff:0:0/96\" /etc/gai.conf; then"],
    [txt "  echo \"precedence ::ffff:0:0/96  100\" >> /etc/gai.conf"],
    [txt "fi"],
    [],
    [txt "cat > /etc/apt/apt.conf.d/99force-ipv4 << EOF"],
    [txt "Acquire::ForceIPv4 \"true\";"],
    [txt "Acquire::Retries \"5\";"],
    [txt "Acquire::http::Timeout \"20\";"],
    [txt "Acquire::https::Timeout \"20\";"],
    [txt "EOF"],
    [],
    [txt "wait_for_dns() \x7b"],
    [txt "  local attempts=20"],
    [txt "  while [ $attempts -gt 0 ]; do"],
    [txt "    if getent ahostsv4 archive.ubuntu.com >/dev/null 2>&1; then"],
    [txt "      return 0"],
    [txt "    fi"],
    [txt "    sleep 2"],
    [txt "    attempts=$((attempts-1))"],
    [txt "  done"],
    [txt "  return 1"],
    [txt "\x7d"],
    [],
    [txt "apt_update() \x7b"],
    [txt "  rm -rf /var/lib/apt/lists/*"],
    [txt "  apt-get $APT_OPTS update -y | tee /tmp/apt-update.log"],
    [txt ("  if grep -E \"Failed to fetch|Temporary failure resolving|Could not resolve\" " ++
      "/tmp/apt-update.log >/dev/null; then")],
    [txt "    return 1"],
    [txt "  fi"],
    [txt "  return 0"],
    [txt "\x7d"],
    [],
    [txt "apt_ok=0"],
    [txt "for i in $(seq 1 5); do"],
    [txt "  ensure_dns"],
    [txt "  wait_for_dns || true"],
    [txt "  if apt_update; then"],
    [txt "    apt_ok=1"],
    [txt "    break"],
    [txt "  fi"],
    [txt "  sleep 3"],
    [txt "done"],
    [txt "if [ \"$apt_ok\" -ne 1 ]; then"],
    [txt "  echo \"apt-get update failed after retries\""],
    [txt "  exit 1"],
    [txt "fi"],
    [],
    [txt ("apt-get $APT_OPTS install -y --fix-missing   build-essential make zlib1g-dev " ++
      "libpcre2-dev libevent-dev   libssl-dev libsystemd-dev wget expect bsdutils")],
    [],
    [txt "# --- Atomicorp repository setup via their official installer ---"],
    [txt "# The installer handles GPG key import, sources.list, and apt configuration"],
    [txt "# internally.  This is the only method that reliably sets up the trust chain"],
    [txt "# for the Atomicorp apt repository on Ubuntu 22.04."],
    [txt "wget -q -O /tmp/atomic_installer.sh https://updates.atomicorp.com/installers/atomic"],
    [txt "chmod +x /tmp/atomic_installer.sh"],
    [],
    [txt "if command -v expect >/dev/null 2>&1; then"],
    [txt "  expect -c '"],
    [txt "    set timeout 120"],
    [txt "    spawn bash /tmp/atomic_installer.sh"],
    [txt "    expect \x7b"],
    [txt "      \"yes/no\" \x7b send \"yes\\r\"; exp_continue \x7d"],
    [txt "      eof"],
    [txt "    \x7d"],
    [txt "  '"],
    [txt "else"],
    [txt "  yes | bash /tmp/atomic_installer.sh"],
    [txt "fi"],
    [txt "rm -f /tmp/atomic_installer.sh"],
    [],
    [txt "apt-get $APT_OPTS update -y"],
    [],
    [txt "apt-get $APT_OPTS install -y ossec-hids-agent"],
    [],
    [txt "if [ ! -f \"$OSSEC_CONF\" ]; then"],
    [txt "  echo \"OSSEC config not found at $OSSEC_CONF\""],
    [txt "  exit 1"],
    [txt "fi"],
    [],
    [txt "cp \"$OSSEC_CONF\" \"$OSSEC_CONF.bak\""],
    [txt ("sed -i \"s|<server-ip>.*</server-ip>|<server-ip>$MANAGER_IP</server-ip>|g\" " ++
      "\"$OSSEC_CONF\"")],
    [],
    [txt ("if /var/ossec/bin/agent-auth -m \"$MANAGER_IP\" -A \"$(hostname)\" " ++
      "-p \"$MANAGER_PORT\" 2>&1; then")],
    [txt "  echo \"Agent registered successfully\""],
    [txt "else"],
    [txt "  echo \"WARNING: agent-auth registration failed.\""],
    [txt "  echo \"If agents are behind NAT, the OSSEC manager must be configured with:\""],
    [txt "  echo \"  <auth><use_source_ip>no</use_source_ip></auth>\""],
    [txt "  echo \"in its ossec.conf so agents register with 'any' instead of the NAT IP.\""],
    [txt "  echo \"Alternatively, connect the host via a wired (non-WiFi) interface and\""],
    [txt "  echo \"redeploy so macvlan networking can give each container a unique IP.\""],
    [txt "fi"],
    [],
    [txt "/var/ossec/bin/ossec-control restart || true"],
    [],
    [txt "echo \"=== OSSEC Agent Information ===\""],
    [txt "echo \"Agent Name: ", .value .container, txt "\""],
    [txt "echo \"Server: ", .value .host, txt "\""],
    [txt "echo \"Status: $(/var/ossec/bin/ossec-control status 2>/dev/null || echo 'unknown')\""]]

def placeholder : Field → CodeText
  | .host => lit "__MANAGER_IP__"
  | .container => lit "__CONTAINER_NAME__"
  | _ => []

/-- The script with the host, and then with the container's name. -/
def ossecScript (server name : CodeText) : CodeText :=
  replace (placeholder .container) name
    (replace (placeholder .host) server (fill placeholder (ofLines ossecLines)))

/-! ## UTMstack -/

/-- `binary_name` -/
def utmstackFile : Line := [txt "utmstack_agent_service_", .value .host]

/-- `binary_url` -/
def utmstackUrl : Line :=
  [txt "https://", .value .host, txt ":9001/private/dependencies/agent/utmstack_agent_service"]

/-- `container_bin` -/
def utmstackBin : Line := [txt "/opt/utmstack-linux-agent/utmstack_agent_service"]

/-- `utmstack_script` -/
def utmstackScript (download : Bool) : List (Piece Field) := ofLines <| [
    [txt "#!/bin/bash"],
    [txt "set -euo pipefail"],
    [txt "export DEBIAN_FRONTEND=noninteractive"],
    [],
    [txt "MANAGER_IP=", .quoted .host],
    [txt "AUTH_KEY=", .quoted .token],
    [],
    [txt "# The install command downloads dependencies internally via wget"],
    [txt "apt-get update -y >/dev/null 2>&1 || true"],
    [txt "apt-get install -y wget >/dev/null 2>&1 || true"]] ++
  blockLines download [
    [txt "apt-get update -y"],
    [txt "apt-get install -y wget"],
    [txt "mkdir -p /opt/utmstack-linux-agent"],
    [txt "wget --no-check-certificate -q -O "] ++ utmstackBin ++ [txt " \""] ++ utmstackUrl ++
      [txt "\""],
    [txt "chmod 755 "] ++ utmstackBin] ++ [
    utmstackBin ++ [txt " install \"$MANAGER_IP\" \"$AUTH_KEY\" yes"],
    [],
    [txt "echo \"=== UTMstack Agent Information ===\""],
    [txt "echo \"Agent Name: ", .value .container, txt "\""],
    [txt "echo \"Server: $MANAGER_IP\""],
    [txt "echo \"Status: Installed\""]]

/-! ## Elastic Agent -/

/-- `deb_file` -/
def elasticDeb : Line := [txt "elastic-agent-", .value .version, txt "-amd64.deb"]

/-- `deb_url` -/
def elasticUrl : Line :=
  txt "https://artifacts.elastic.co/downloads/beats/elastic-agent/" :: elasticDeb

/-- `apt_block` -/
def aptBlock : List Line := [
    [txt "ensure_dns() \x7b"],
    [txt "  GW_DNS=$(ip route | awk '/default/ \x7bprint $3; exit\x7d')"],
    [txt "  \x7b"],
    [txt "    if [ -n \"$GW_DNS\" ]; then echo \"nameserver $GW_DNS\"; fi"],
    [txt "    echo \"nameserver 1.1.1.1\""],
    [txt "    echo \"nameserver 8.8.8.8\""],
    [txt "    echo \"options timeout:1 attempts:3\""],
    [txt "  \x7d > /etc/resolv.conf"],
    [txt "\x7d"],
    [txt "wait_for_dns() \x7b"],
    [txt "  local attempts=20"],
    [txt "  while [ $attempts -gt 0 ]; do"],
    [txt "    if getent ahostsv4 archive.ubuntu.com >/dev/null 2>&1; then return 0; fi"],
    [txt "    sleep 2; attempts=$((attempts-1))"],
    [txt "  done"],
    [txt "  return 1"],
    [txt "\x7d"],
    [txt "ensure_dns"],
    [txt "wait_for_dns || ensure_dns"],
    [txt "apt-get update -y"],
    [txt "apt-get install -y curl wget"]]

/-- `elastic_script` -/
def elasticScript (download : Bool) : List (Piece Field) := ofLines <| [
    [txt "#!/bin/bash"],
    [txt "set -euo pipefail"],
    [txt "export DEBIAN_FRONTEND=noninteractive"],
    [],
    [txt "FLEET_URL=", .quoted .host],
    [txt "ENROLLMENT_TOKEN=", .quoted .token]] ++
  blockLines download
    (aptBlock ++ [[]] ++ debDownload "  curl -L -o \"" (tmp elasticDeb) elasticUrl) ++ [
    [txt "ELASTIC_AGENT_FLAVOR=servers dpkg -i \""] ++ tmp elasticDeb ++ [txt ("\" || apt-get " ++
      "install -f -y")],
    [txt "rm -f \""] ++ tmp elasticDeb ++ [txt "\""],
    [],
    [txt "systemctl enable elastic-agent"],
    [txt "systemctl start elastic-agent"],
    [],
    [txt "elastic-agent enroll \\"],
    [txt "  --url=\"https://$FLEET_URL:8220\" \\"],
    [txt "  --enrollment-token=\"$ENROLLMENT_TOKEN\" \\"],
    [txt "  --insecure"],
    [],
    [txt "echo \"=== Elastic Agent Information ===\""],
    [txt "echo \"Agent Name: ", .value .container, txt "\""],
    [txt "echo \"Fleet URL: $FLEET_URL\""],
    [txt "echo \"Status: $(systemctl is-active elastic-agent 2>/dev/null || echo unknown)\""]]

/-! ## The placeholders -/

/-- A line in which a text can be replaced piece by piece: it does not stand in a piece, and cannot
begin or end next to a value. -/
def isSeparated (w : CodeText) : Line → Bool
  | [] => true
  | [.text a] => !occursIn w a
  | [.text a, .value _, .text b] =>
    !occursIn w a && !occursIn w b && a.getLast?.any (fun c => decide (c ∉ w)) &&
      b.head?.any (fun c => decide (c ∉ w))
  | _ => false

variable {w new : CodeText} {values : Field → CodeText}

lemma fill_append (values : Field → CodeText) (ps qs : List (Piece Field)) :
    fill values (ps ++ qs) = fill values ps ++ fill values qs := List.flatMap_append

lemma replace_line (hw : w ≠ []) {line : Line} (h : isSeparated w line = true) :
    replace w new (fill values line) = fill (fun v => replace w new (values v)) line := by
  match line, h with
  | [], _ => rfl
  | [.text a], h =>
    rw [isSeparated, Bool.not_eq_true'] at h
    rw [fill, List.flatMap_singleton]
    exact (replace_of_not_occurs h).trans (List.append_nil a).symm
  | [.text a, .value v, .text b], h =>
    simp only [isSeparated, Bool.and_eq_true, Bool.not_eq_true', Option.any_eq_true] at h
    obtain ⟨⟨⟨ha, hb⟩, d, hlast, hd⟩, c, hhead, hc⟩ := h
    obtain ⟨a', rfl⟩ := List.getLast?_eq_some_iff.mp hlast
    obtain ⟨b', rfl⟩ := List.head?_eq_some_iff.mp hhead
    have hd : d ∉ w := of_decide_eq_true hd
    have hc : c ∉ w := of_decide_eq_true hc
    have ha : replace w new a' ++ [d] = a' ++ [d] :=
      (replace_append_cons hw hd).symm.trans (replace_of_not_occurs ha)
    have hb : c :: replace w new b' = c :: b' :=
      (replace_append_cons (s := []) hw hc).symm.trans (replace_of_not_occurs hb)
    calc replace w new (fill values [.text (a' ++ [d]), .value v, .text (c :: b')])
        = replace w new (a' ++ d :: (values v ++ c :: b')) := by
          simp [fill, Shell.Piece.fill]
      _ = (replace w new a' ++ [d]) ++ (replace w new (values v) ++ c :: replace w new b') := by
          rw [replace_append_cons hw hd, replace_append_cons hw hc]
          simp
      _ = fill (fun v => replace w new (values v))
            [.text (a' ++ [d]), .value v, .text (c :: b')] := by
          rw [ha, hb]
          simp [fill, Shell.Piece.fill]

lemma replace_ofLines (hw : w ≠ []) (hnewline : newline ∉ w) {lines : List Line}
    (h : ∀ line ∈ lines, isSeparated w line = true) :
    replace w new (fill values (ofLines lines)) =
      fill (fun v => replace w new (values v)) (ofLines lines) := by
  induction lines with
  | nil => rfl
  | cons line lines ih =>
    have hsplit : ∀ values : Field → CodeText, fill values (ofLines (line :: lines)) =
        fill values line ++ newline :: fill values (ofLines lines) := by
      intro values
      rw [ofLines, List.flatMap_cons, fill_append, fill_append, List.append_assoc]
      rfl
    rw [hsplit, hsplit, replace_append_cons hw hnewline,
      replace_line hw (h line List.mem_cons_self),
      ih fun l hl => h l (List.mem_cons_of_mem line hl)]

lemma isSeparated_ossecLines : ∀ line ∈ ossecLines,
    isSeparated (placeholder .host) line = true ∧
      isSeparated (placeholder .container) line = true := by
  -- in three parts, each of which is checked on its own
  rw [← List.take_append_drop 40 ossecLines, ← List.take_append_drop 40 (ossecLines.drop 40)]
  refine List.forall_mem_append.mpr ⟨?_, List.forall_mem_append.mpr ⟨?_, ?_⟩⟩
  · decide +kernel
  · decide +kernel
  · decide +kernel

/-- **The placeholders are the values**, as no host has an underscore. -/
theorem ossecScript_eq {server name : CodeText} (hserver : 95 ∉ server) :
    ossecScript server name = fill (fun
      | .host => server
      | .container => name
      | _ => []) (ofLines ossecLines) := by
  have hcontainer : replace (placeholder .host) server (placeholder .container) =
      placeholder .container := replace_of_not_occurs (by decide)
  rw [ossecScript,
    replace_ofLines (by decide) (by decide) fun l hl => (isSeparated_ossecLines l hl).1,
    replace_ofLines (by decide) (by decide) fun l hl => (isSeparated_ossecLines l hl).2]
  refine congrArg (fill · _) (funext fun v => ?_)
  cases v with
  | host =>
    rw [replace_self (by decide)]
    exact replace_of_not_occurs (not_occurs_of_notMem hserver)
  | container =>
    rw [hcontainer]
    exact replace_self (by decide)
  | group | version | token => rfl

end Habeny.Installers
