/-!
# Parts of the graph page

The page shows the components as a graph that can be searched and moved. It holds its data as one
script constant; everything else is fixed.
-/

namespace RepoAtlas.Report.Page

/-- What stands before the title. -/
def head : List String :=
  ["<!DOCTYPE html>",
    "<html lang=\"en\">",
    "<head>",
    "<meta charset=\"UTF-8\">",
    "<meta name=\"viewport\" content=\"width=device-width, initial-scale=1.0\">"]

/-- The scripts that the page loads. -/
def links : List String :=
  ["<script src=\"https://d3js.org/d3.v7.min.js\"></script>"]

/-- How the page looks. -/
def style : List String :=
  ["<style>",
    "* \x7b margin: 0; padding: 0; box-sizing: border-box; \x7d",
    "body \x7b font-family: -apple-system, BlinkMacSystemFont, 'Segoe UI', Roboto, sans-serif; background: #0d1117; color: #c9d1d9; overflow: hidden; \x7d",
    "#controls \x7b position: fixed; top: 16px; left: 16px; z-index: 10; display: flex; gap: 8px; align-items: center; \x7d",
    "#search \x7b padding: 8px 12px; border-radius: 6px; border: 1px solid #30363d; background: #161b22; color: #c9d1d9; font-size: 14px; width: 240px; outline: none; \x7d",
    "#search:focus \x7b border-color: #58a6ff; \x7d",
    "#info \x7b position: fixed; top: 16px; right: 16px; z-index: 10; background: #161b22; border: 1px solid #30363d; border-radius: 8px; padding: 16px; max-width: 320px; font-size: 13px; display: none; \x7d",
    "#info h3 \x7b color: #58a6ff; margin-bottom: 8px; font-size: 15px; \x7d",
    "#info .metric \x7b display: flex; justify-content: space-between; padding: 3px 0; border-bottom: 1px solid #21262d; \x7d",
    "#info .metric-label \x7b color: #8b949e; \x7d",
    "#info .metric-value \x7b color: #c9d1d9; font-weight: 600; \x7d",
    "#info .keywords \x7b margin-top: 8px; \x7d",
    "#info .kw \x7b display: inline-block; background: #1f2937; padding: 2px 6px; border-radius: 3px; margin: 2px; font-size: 11px; color: #7ee787; \x7d",
    "#info .hub-badge \x7b display: inline-block; background: #f0883e33; color: #f0883e; padding: 2px 8px; border-radius: 10px; font-size: 11px; font-weight: 600; margin-left: 6px; \x7d",
    "#legend \x7b position: fixed; bottom: 16px; left: 16px; z-index: 10; background: #161b22; border: 1px solid #30363d; border-radius: 8px; padding: 12px; font-size: 12px; \x7d",
    "#legend h4 \x7b margin-bottom: 6px; color: #8b949e; \x7d",
    ".legend-item \x7b display: flex; align-items: center; gap: 6px; margin: 3px 0; \x7d",
    ".legend-dot \x7b width: 10px; height: 10px; border-radius: 50%; \x7d",
    "#stats \x7b position: fixed; bottom: 16px; right: 16px; z-index: 10; background: #161b22; border: 1px solid #30363d; border-radius: 8px; padding: 12px; font-size: 12px; color: #8b949e; \x7d",
    "svg \x7b width: 100vw; height: 100vh; \x7d",
    ".link \x7b stroke-opacity: 0.3; \x7d",
    ".link:hover \x7b stroke-opacity: 0.8; \x7d",
    ".node-circle \x7b cursor: pointer; stroke-width: 1.5px; transition: stroke-width 0.2s; \x7d",
    ".node-circle:hover \x7b stroke-width: 3px; \x7d",
    ".node-label \x7b font-size: 10px; fill: #8b949e; pointer-events: none; text-anchor: middle; \x7d",
    ".node-highlight .node-circle \x7b stroke-width: 3px; \x7d",
    ".node-dim \x7b opacity: 0.15; \x7d",
    "</style>"]

/-- What the page shows, up to its own script. -/
def body : List String :=
  ["</head>",
    "<body>",
    "<div id=\"controls\">",
    "  <input type=\"text\" id=\"search\" placeholder=\"Search components...\" />",
    "</div>",
    "<div id=\"info\"></div>",
    "<div id=\"legend\">",
    "  <h4>Communities</h4>",
    "  <div id=\"legend-items\"></div>",
    "  <div class=\"legend-item\" style=\"margin-top:8px\"><div class=\"legend-dot\" style=\"border:2px solid #f0883e;background:transparent\"></div> Hub component</div>",
    "</div>",
    "<div id=\"stats\"></div>",
    "<svg></svg>",
    "<script>"]

/-- The part of the script that draws the graph. -/
def drawing : List String :=
  ["const nodes = data.nodes.map(n => (\x7b...n, id: n.id\x7d));",
    "const links = data.edges.map(e => (\x7bsource: e.source, target: e.target\x7d));",
    "const nodeMap = new Map(nodes.map(n => [n.id, n]));",
    "",
    "// Filter links to only include valid node references",
    "const validLinks = links.filter(l => nodeMap.has(l.source) && nodeMap.has(l.target));",
    "",
    "const width = window.innerWidth;",
    "const height = window.innerHeight;",
    "const colors = d3.scaleOrdinal(d3.schemeTableau10);",
    "",
    "// PageRank range for sizing",
    "const prValues = nodes.map(n => n.metrics?.pagerank || 0);",
    "const prMin = Math.min(...prValues);",
    "const prMax = Math.max(...prValues);",
    "const radiusScale = d3.scaleLinear().domain([prMin, prMax]).range([4, 20]).clamp(true);",
    "",
    "const svg = d3.select(\"svg\");",
    "const g = svg.append(\"g\");",
    "",
    "// Zoom",
    "const zoom = d3.zoom().scaleExtent([0.1, 8]).on(\"zoom\", e => g.attr(\"transform\", e.transform));",
    "svg.call(zoom);",
    "",
    "// Arrow markers",
    "svg.append(\"defs\").append(\"marker\")",
    "  .attr(\"id\", \"arrow\").attr(\"viewBox\", \"0 -5 10 10\")",
    "  .attr(\"refX\", 20).attr(\"refY\", 0)",
    "  .attr(\"markerWidth\", 6).attr(\"markerHeight\", 6)",
    "  .attr(\"orient\", \"auto\")",
    "  .append(\"path\").attr(\"d\", \"M0,-5L10,0L0,5\").attr(\"fill\", \"#30363d\");",
    "",
    "const simulation = d3.forceSimulation(nodes)",
    "  .force(\"link\", d3.forceLink(validLinks).id(d => d.id).distance(80))",
    "  .force(\"charge\", d3.forceManyBody().strength(-200))",
    "  .force(\"center\", d3.forceCenter(width/2, height/2))",
    "  .force(\"collision\", d3.forceCollide().radius(d => radiusScale(d.metrics?.pagerank||0) + 2));",
    "",
    "const link = g.append(\"g\").selectAll(\"line\")",
    "  .data(validLinks).join(\"line\")",
    "  .attr(\"class\", \"link\")",
    "  .attr(\"stroke\", \"#30363d\")",
    "  .attr(\"marker-end\", \"url(#arrow)\");",
    "",
    "const nodeGroup = g.append(\"g\").selectAll(\"g\")",
    "  .data(nodes).join(\"g\")",
    "  .call(d3.drag()",
    "    .on(\"start\", (e,d) => \x7b if(!e.active) simulation.alphaTarget(0.3).restart(); d.fx=d.x; d.fy=d.y; \x7d)",
    "    .on(\"drag\", (e,d) => \x7b d.fx=e.x; d.fy=e.y; \x7d)",
    "    .on(\"end\", (e,d) => \x7b if(!e.active) simulation.alphaTarget(0); d.fx=null; d.fy=null; \x7d));",
    "",
    "nodeGroup.append(\"circle\")",
    "  .attr(\"class\", \"node-circle\")",
    "  .attr(\"r\", d => radiusScale(d.metrics?.pagerank || 0))",
    "  .attr(\"fill\", d => colors(d.community_id >= 0 ? d.community_id : 0))",
    "  .attr(\"stroke\", d => d.metrics?.is_hub ? \"#f0883e\" : \"#0d1117\")",
    "  .attr(\"stroke-width\", d => d.metrics?.is_hub ? 2.5 : 1);",
    "",
    "nodeGroup.append(\"text\")",
    "  .attr(\"class\", \"node-label\")",
    "  .attr(\"dy\", d => radiusScale(d.metrics?.pagerank||0) + 12)",
    "  .text(d => d.name.length > 20 ? d.name.slice(0,18) + \"...\" : d.name);",
    ""]

/-- The part of the script that shows a component and searches. -/
def details : List String :=
  ["// Info panel",
    "const infoPanel = d3.select(\"#info\");",
    "nodeGroup.on(\"click\", (e, d) => \x7b",
    "  const m = d.metrics || \x7b\x7d;",
    "  let html = `<h3>$\x7bd.name\x7d$\x7bm.is_hub ? '<span class=\"hub-badge\">HUB</span>' : ''\x7d</h3>`;",
    "  html += `<div style=\"color:#8b949e;margin-bottom:8px\">$\x7bd.type\x7d &middot; $\x7bd.file_path\x7d</div>`;",
    "  html += `<div class=\"metric\"><span class=\"metric-label\">PageRank</span><span class=\"metric-value\">$\x7b(m.pagerank||0).toFixed(5)\x7d</span></div>`;",
    "  html += `<div class=\"metric\"><span class=\"metric-label\">Fan-in</span><span class=\"metric-value\">$\x7bm.fan_in||0\x7d</span></div>`;",
    "  html += `<div class=\"metric\"><span class=\"metric-label\">Fan-out</span><span class=\"metric-value\">$\x7bm.fan_out||0\x7d</span></div>`;",
    "  html += `<div class=\"metric\"><span class=\"metric-label\">Instability</span><span class=\"metric-value\">$\x7b(m.instability||0).toFixed(3)\x7d</span></div>`;",
    "  html += `<div class=\"metric\"><span class=\"metric-label\">Complexity</span><span class=\"metric-value\">$\x7b(m.complexity_score||0).toFixed(1)\x7d</span></div>`;",
    "  html += `<div class=\"metric\"><span class=\"metric-label\">Betweenness</span><span class=\"metric-value\">$\x7b(m.betweenness_centrality||0).toFixed(4)\x7d</span></div>`;",
    "  html += `<div class=\"metric\"><span class=\"metric-label\">Cyclomatic CC</span><span class=\"metric-value\">$\x7bm.cyclomatic_complexity||0\x7d</span></div>`;",
    "  html += `<div class=\"metric\"><span class=\"metric-label\">Cognitive CC</span><span class=\"metric-value\">$\x7bm.cognitive_complexity||0\x7d</span></div>`;",
    "  html += `<div class=\"metric\"><span class=\"metric-label\">Maintainability</span><span class=\"metric-value\">$\x7b(m.maintainability_index||100).toFixed(1)\x7d</span></div>`;",
    "  html += `<div class=\"metric\"><span class=\"metric-label\">Community</span><span class=\"metric-value\">$\x7bd.community_id\x7d</span></div>`;",
    "  if (m.tfidf_keywords && m.tfidf_keywords.length) \x7b",
    "    html += `<div class=\"keywords\">`;",
    "    m.tfidf_keywords.forEach(([kw]) => \x7b html += `<span class=\"kw\">$\x7bkw\x7d</span>`; \x7d);",
    "    html += `</div>`;",
    "  \x7d",
    "  infoPanel.html(html).style(\"display\", \"block\");",
    "\x7d);",
    "",
    "svg.on(\"click\", (e) => \x7b if(e.target.tagName === 'svg') infoPanel.style(\"display\",\"none\"); \x7d);",
    "",
    "// Search",
    "const searchInput = d3.select(\"#search\");",
    "searchInput.on(\"input\", function() \x7b",
    "  const query = this.value.toLowerCase();",
    "  if (!query) \x7b",
    "    nodeGroup.classed(\"node-dim\", false).classed(\"node-highlight\", false);",
    "    link.classed(\"node-dim\", false);",
    "    return;",
    "  \x7d",
    "  const matches = new Set();",
    "  nodes.forEach(n => \x7b if(n.name.toLowerCase().includes(query) || n.file_path.toLowerCase().includes(query)) matches.add(n.id); \x7d);",
    "  nodeGroup.classed(\"node-dim\", d => !matches.has(d.id)).classed(\"node-highlight\", d => matches.has(d.id));",
    "  link.classed(\"node-dim\", d => !matches.has(d.source.id) && !matches.has(d.target.id));",
    "\x7d);",
    ""]

/-- The part of the script that shows communities and totals. -/
def communities : List String :=
  ["// Community cluster hulls",
    "const hullG = g.insert(\"g\", \":first-child\");",
    "const hullPadding = 30;",
    "",
    "function updateHulls() \x7b",
    "  const communityNodes = \x7b\x7d;",
    "  nodes.forEach(n => \x7b",
    "    if (n.community_id >= 0) \x7b",
    "      if (!communityNodes[n.community_id]) communityNodes[n.community_id] = [];",
    "      communityNodes[n.community_id].push([n.x, n.y]);",
    "    \x7d",
    "  \x7d);",
    "",
    "  hullG.selectAll(\"path.hull\").remove();",
    "  Object.entries(communityNodes).forEach(([cid, points]) => \x7b",
    "    if (points.length < 3) return;",
    "    const hull = d3.polygonHull(points);",
    "    if (!hull) return;",
    "",
    "    const centroid = d3.polygonCentroid(hull);",
    "    const expanded = hull.map(([x, y]) => \x7b",
    "      const dx = x - centroid[0];",
    "      const dy = y - centroid[1];",
    "      const dist = Math.sqrt(dx*dx + dy*dy);",
    "      const scale = (dist + hullPadding) / dist;",
    "      return [centroid[0] + dx * scale, centroid[1] + dy * scale];",
    "    \x7d);",
    "",
    "    hullG.append(\"path\")",
    "      .attr(\"class\", \"hull\")",
    "      .attr(\"d\", `M$\x7bexpanded.map(p => p.join(\",\")).join(\"L\")\x7dZ`)",
    "      .attr(\"fill\", colors(parseInt(cid)))",
    "      .attr(\"fill-opacity\", 0.06)",
    "      .attr(\"stroke\", colors(parseInt(cid)))",
    "      .attr(\"stroke-opacity\", 0.2)",
    "      .attr(\"stroke-width\", 1.5)",
    "      .attr(\"stroke-dasharray\", \"4,4\");",
    "  \x7d);",
    "\x7d",
    "",
    "simulation.on(\"tick\", () => \x7b",
    "  link.attr(\"x1\",d=>d.source.x).attr(\"y1\",d=>d.source.y).attr(\"x2\",d=>d.target.x).attr(\"y2\",d=>d.target.y);",
    "  nodeGroup.attr(\"transform\", d => `translate($\x7bd.x\x7d,$\x7bd.y\x7d)`);",
    "  updateHulls();",
    "\x7d);",
    "",
    "// Legend",
    "const communityIds = [...new Set(nodes.map(n => n.community_id).filter(c => c >= 0))].sort((a,b)=>a-b);",
    "const legendItems = d3.select(\"#legend-items\");",
    "communityIds.forEach(cid => \x7b",
    "  const count = nodes.filter(n => n.community_id === cid).length;",
    "  legendItems.append(\"div\").attr(\"class\",\"legend-item\")",
    "    .html(`<div class=\"legend-dot\" style=\"background:$\x7bcolors(cid)\x7d\"></div> Community $\x7bcid\x7d ($\x7bcount\x7d)`);",
    "\x7d);",
    "",
    "// Stats",
    "const sm = data.summary_metrics || \x7b\x7d;",
    "d3.select(\"#stats\").html(",
    "  `Nodes: $\x7bsm.total_nodes||nodes.length\x7d &middot; Edges: $\x7bsm.total_edges||validLinks.length\x7d &middot; Hubs: $\x7b(sm.hub_files||[]).length\x7d &middot; Cycles: $\x7b(sm.circular_dependencies||[]).length\x7d`",
    ");",
    "</script>",
    "</body>",
    "</html>"]

end RepoAtlas.Report.Page
